/-!
Paths to files: steps from one directory to the next, and the places they lead to. Names stand for
what is in a directory; there are no links, so a step up undoes the step into a directory.
-/
namespace OtaUpgrade

/-- One step along a path. -/
inductive FilePath.Step where
  | stay
  | up
  | into (name : String)
  deriving DecidableEq, Repr

/-- A place in the tree of directories. -/
inductive Place where
  /-- The working directory, or the one so many levels above it. -/
  | above (levels : Nat)
  | root
  | inside (dir : Place) (name : String)
  deriving DecidableEq, Repr

namespace Place

/-- The place one step on. Nothing is above the root. -/
def after : Place → FilePath.Step → Place
  | p, .stay => p
  | p, .into name => .inside p name
  | .above levels, .up => .above (levels + 1)
  | .root, .up => .root
  | .inside dir _, .up => dir

/-- A path to the place. -/
def text : Place → String
  | .above 0 => "."
  | .above (levels + 1) => (above levels).text ++ "/.."
  | .root => "/"
  | .inside dir name => dir.text ++ "/" ++ name

end Place

/-- A path, taken apart. -/
structure FilePath where
  /-- Where it starts. -/
  start : Place
  steps : List FilePath.Step
  /-- A slash follows the last step, so it can only lead to a directory. -/
  slashed : Bool
  deriving DecidableEq, Repr

namespace FilePath

/-- The step that a part between two slashes stands for. -/
def Step.ofPart : String → Step
  | "." => .stay
  | ".." => .up
  | name => .into name

/-- Takes a path apart. Slashes in a row count once. -/
def read (path : String) : FilePath :=
  let parts := path.splitOn "/"
  { start := if parts.head? = some "" then .root else .above 0
    steps := (parts.filter (· != "")).map Step.ofPart
    slashed := parts.getLast? = some "" }

/-- The steps to what is there. Behind a slash, it is entered. -/
def stepsToRead (p : FilePath) : List Step :=
  if p.slashed then p.steps ++ [.stay] else p.steps

/-- The steps to what may be made. Nothing is made under a name with a slash behind it; such a path
gets no further than the directory the name would be in. -/
def stepsToWrite (p : FilePath) : List Step :=
  if p.slashed then p.steps.dropLast ++ [.stay] else p.steps

/-- The place that the steps lead to. -/
def place (p : FilePath) : Place :=
  p.steps.foldl Place.after p.start

/-- The places that the steps pass, the last one included. -/
def placesFrom (start : Place) : List Step → List Place
  | [] => []
  | step :: steps => start.after step :: placesFrom (start.after step) steps

/-- The places on the way. -/
def places (p : FilePath) : List Place :=
  placesFrom p.start p.steps

end FilePath
end OtaUpgrade
