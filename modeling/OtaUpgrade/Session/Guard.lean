/-!
Requests that must not be made twice at a time. The flags may be shared: whoever finds a request
outstanding does not make it again.
-/
namespace OtaUpgrade

/-- A request with an answer still to come. -/
inductive Request where
  | connection
  | componentMetadata
  deriving DecidableEq, Repr

/-- Every request. -/
def Request.all : List Request := [connection, componentMetadata]

/-- The request's name in one word. -/
def Request.label : Request → String
  | connection => "connection"
  | componentMetadata => "metadata"

/-- Which requests are outstanding. -/
structure Guard where
  connection : Bool := false
  componentMetadata : Bool := false
  deriving DecidableEq, Repr

namespace Guard

/-- The request is outstanding. -/
def has (g : Guard) : Request → Bool
  | .connection => g.connection
  | .componentMetadata => g.componentMetadata

/-- Marks the request outstanding or not. -/
def set (g : Guard) (outstanding : Bool) : Request → Guard
  | .connection => { g with connection := outstanding }
  | .componentMetadata => { g with componentMetadata := outstanding }

/-- Marks the request outstanding. -/
def begin (g : Guard) (r : Request) : Guard := g.set true r

/-- Marks the request answered. -/
def finish (g : Guard) (r : Request) : Guard := g.set false r

@[simp] theorem has_set (g : Guard) (b : Bool) (r : Request) : (g.set b r).has r = b := by
  cases r <;> rfl

theorem has_set_of_ne (g : Guard) (b : Bool) {r q : Request} (h : q ≠ r) :
    (g.set b r).has q = g.has q := by
  cases r <;> cases q <;> simp_all [set, has]

end Guard
end OtaUpgrade
