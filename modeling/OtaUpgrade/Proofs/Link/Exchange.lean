import OtaUpgrade.Proofs.Link.Nonces

/-!
The two ends of one tunnel, each made to wrap and to unwrap whenever it likes. Nothing is assumed
about the order: packets may be unwrapped in any order, more than once, or never, and anything may
be passed off as a packet.
-/
namespace OtaUpgrade

/-- An end refuses what it has wrapped itself, or might have. -/
theorem TunnelEnd.unwrap_wrap_self {t t' : TunnelEnd} (h : t'.direction = t.direction)
    (payload : Bytes) : t'.unwrap (t.wrap payload) = .error (.crypto "Reflected payload") := by
  have hlong : ¬ payload.length + overhead < overhead := by omega
  have hbyte : (t.wrap payload).head? = some t'.direction.byte := by
    rw [h]
    rfl
  rw [unwrap, length_wrap, if_neg hlong, if_pos hbyte]

/-- What an end of a tunnel is made to do. The end is named by the direction it wraps in. -/
inductive Errand where
  | wrap (d : Direction) (payload : Bytes)
  | unwrap (d : Direction) (content : Bytes)
  deriving DecidableEq, Repr

/-- The payloads that are to be wrapped, each with the end that wraps it. -/
def loads (errands : List Errand) : List (Direction × Bytes) :=
  errands.filterMap fun
    | .wrap d payload => some (d, payload)
    | .unwrap _ _ => none

/-- What is to be unwrapped, each with the end that unwraps it. -/
def deliveries (errands : List Errand) : List (Direction × Bytes) :=
  errands.filterMap fun
    | .wrap _ _ => none
    | .unwrap d content => some (d, content)

/-- A payload and the packet it was wrapped in. -/
structure Parcel where
  payload : Bytes
  packet : Packet
  deriving DecidableEq, Repr

/-- What an end made of the content of a packet. -/
structure Reading where
  reader : Direction
  content : Bytes
  answer : Except LinkError Bytes

/-- The two ends of a tunnel, and what they have wrapped and unwrapped so far. -/
structure Exchange where
  ends : Direction → TunnelEnd
  parcels : List Parcel := []
  readings : List Reading := []

namespace Exchange

/-- The two ends under a key, before either has wrapped anything. -/
def fresh (key : SecretKey) : Exchange where
  ends d := ⟨key, d, 0⟩

/-- One end does what it is made to do. -/
def run (x : Exchange) : Errand → Exchange
  | .wrap d payload =>
    { x with
      ends := Function.update x.ends d (x.ends d).advance
      parcels := x.parcels ++ [⟨payload, d, (x.ends d).wrap payload⟩] }
  | .unwrap d content =>
    { x with readings := x.readings ++ [⟨d, content, (x.ends d).unwrap content⟩] }

def runAll (x : Exchange) (errands : List Errand) : Exchange :=
  errands.foldl run x

/-- The packets that were made, oldest first. -/
def packets (x : Exchange) : List Packet :=
  x.parcels.map (·.packet)

/-- Some end under the key made the parcel as it should. -/
def Made (key : SecretKey) (p : Parcel) : Prop :=
  ∃ t : TunnelEnd, t.key = key ∧ t.direction = p.packet.direction ∧
    p.packet.content = t.wrap p.payload

/-- Some end under the key read the packet as it should. -/
def Read (key : SecretKey) (r : Reading) : Prop :=
  ∃ t : TunnelEnd, t.key = key ∧ t.direction = r.reader ∧ r.answer = t.unwrap r.content

/-- What holds of the two ends whatever they are made to do. -/
structure Orderly (key : SecretKey) (x : Exchange) : Prop where
  keyed : ∀ d, (x.ends d).key = key
  directed : ∀ d, (x.ends d).direction = d
  sends : ∀ d, TunnelEnd.Sends ⟨key, d, 0⟩ (going d x.packets) (x.ends d)
  made : ∀ p ∈ x.parcels, Made key p
  read : ∀ r ∈ x.readings, Read key r

variable {key : SecretKey} {x : Exchange}

theorem Orderly.fresh (key : SecretKey) : (fresh key).Orderly key where
  keyed _ := rfl
  directed _ := rfl
  sends _ := .refl _
  made := by
    intro p hp
    cases hp
  read := by
    intro r hr
    cases hr

theorem Orderly.wrap (h : x.Orderly key) (d : Direction) (payload : Bytes) :
    (x.run (.wrap d payload)).Orderly key := by
  -- the other end stays as it is
  have hends (e : Direction) :
      (x.run (.wrap d payload)).ends e = if e = d then (x.ends d).advance else x.ends e := by
    simp only [run, Function.update_apply]
  refine ⟨?_, ?_, ?_, ?_, h.read⟩
  · intro e
    rw [hends]
    split
    · exact h.keyed d
    · exact h.keyed e
  · intro e
    rw [hends]
    split
    · next he =>
      subst he
      exact h.directed e
    · exact h.directed e
  · intro e
    rw [hends]
    by_cases he : e = d
    · subst he
      simpa [run, packets] using (h.sends e).trans (.wrap _ payload)
    · simpa [run, packets, he, Ne.symm he] using h.sends e
  · intro p hp
    simp only [run, List.mem_append, List.mem_singleton] at hp
    rcases hp with hp | rfl
    · exact h.made p hp
    · exact ⟨x.ends d, h.keyed d, h.directed d, rfl⟩

theorem Orderly.unwrap (h : x.Orderly key) (d : Direction) (content : Bytes) :
    (x.run (.unwrap d content)).Orderly key := by
  refine ⟨h.keyed, h.directed, h.sends, h.made, ?_⟩
  intro r hr
  simp only [run, List.mem_append, List.mem_singleton] at hr
  rcases hr with hr | rfl
  · exact h.read r hr
  · exact ⟨x.ends d, h.keyed d, h.directed d, rfl⟩

theorem Orderly.runAll (h : x.Orderly key) (errands : List Errand) :
    (x.runAll errands).Orderly key := by
  induction errands generalizing x with
  | nil => exact h
  | cons errand errands ih =>
    cases errand with
    | wrap d payload => exact ih (h.wrap d payload)
    | unwrap d content => exact ih (h.unwrap d content)

/-- Every payload is wrapped, in the order in which it came. -/
theorem parcels_runAll (x : Exchange) (errands : List Errand) :
    (x.runAll errands).parcels.map (fun p => (p.packet.direction, p.payload))
      = x.parcels.map (fun p => (p.packet.direction, p.payload)) ++ loads errands := by
  induction errands generalizing x with
  | nil => simp [runAll, loads]
  | cons errand errands ih =>
    simp only [runAll, List.foldl_cons] at ih ⊢
    rw [ih]
    cases errand <;> simp [run, loads]

/-- Everything is unwrapped, or refused, in the order in which it came. -/
theorem readings_runAll (x : Exchange) (errands : List Errand) :
    (x.runAll errands).readings.map (fun r => (r.reader, r.content))
      = x.readings.map (fun r => (r.reader, r.content)) ++ deliveries errands := by
  induction errands generalizing x with
  | nil => simp [runAll, deliveries]
  | cons errand errands ih =>
    simp only [runAll, List.foldl_cons] at ih ⊢
    rw [ih]
    cases errand <;> simp [run, deliveries]

theorem length_going (d : Direction) (x : Exchange) :
    (going d x.packets).length
      = (x.parcels.map fun p => (p.packet.direction, p.payload)).countP (·.1 = d) := by
  simp [going, packets, List.countP_eq_length_filter, List.filter_map, Function.comp_def]

/-- A packet yields its payload at the other end, and is refused at the end that made it. -/
theorem Read.answer {p : Parcel} {r : Reading} (hr : Read key r) (hp : Made key p)
    (h : r.content = p.packet.content) :
    r.answer = if r.reader = p.packet.direction then .error (.crypto "Reflected payload")
      else .ok p.payload := by
  obtain ⟨t, hkey, hd, hcontent⟩ := hp
  obtain ⟨t', hkey', hd', hanswer⟩ := hr
  rw [hanswer, h, hcontent]
  by_cases hsame : r.reader = p.packet.direction
  · rw [if_pos hsame]
    apply TunnelEnd.unwrap_wrap_self
    rw [hd', hsame, hd]
  · rw [if_neg hsame]
    apply TunnelEnd.Paired.unwrap_wrap
    refine ⟨hkey'.trans hkey.symm, ?_⟩
    rw [hd', hd]
    exact hsame

/-- The two ends of one tunnel, whatever they are made to do. Every payload is wrapped and makes 28
bytes more; as long as neither end starts its count over, no two packets bear one nonce; and
whenever an end unwraps a packet, it comes to the payload if the other end made the packet, and
refuses it if it made the packet itself. -/
theorem ends_agree (key : SecretKey) (errands : List Errand)
    (hlimit : ∀ d, (loads errands).countP (·.1 = d) < wordLimit) :
    let x := (fresh key).runAll errands
    x.parcels.map (fun p => (p.packet.direction, p.payload)) = loads errands ∧
      x.readings.map (fun r => (r.reader, r.content)) = deliveries errands ∧
      (x.packets.map fun p => TunnelEnd.nonceOf p.content).Nodup ∧
      ∀ p ∈ x.parcels,
        p.packet.content.length = p.payload.length + 28 ∧
        ∀ r ∈ x.readings, r.content = p.packet.content →
          r.answer = if r.reader = p.packet.direction then .error (.crypto "Reflected payload")
            else .ok p.payload := by
  intro x
  have hx : x.Orderly key := (Orderly.fresh key).runAll errands
  have hparcels : x.parcels.map (fun p => (p.packet.direction, p.payload)) = loads errands :=
    parcels_runAll (fresh key) errands
  have hsends (d : Direction) :
      ∃ payloads, going d x.packets = TunnelEnd.wrapAll ⟨key, d, 0⟩ payloads := by
    obtain ⟨payloads, hp, -⟩ := hx.sends d
    exact ⟨payloads, hp⟩
  refine ⟨hparcels, readings_runAll (fresh key) errands, nodup_nonces hsends ?_, ?_⟩
  · intro d
    rw [length_going, hparcels]
    exact hlimit d
  · intro p hp
    refine ⟨?_, fun r hr hcontent => (hx.read r hr).answer (hx.made p hp) hcontent⟩
    obtain ⟨t, -, -, hcontent⟩ := hx.made p hp
    rw [hcontent, TunnelEnd.length_wrap]
    rfl

/-- Both ends wrap something, and both are handed the packet that goes to the node. -/
def handedBoth : List Errand :=
  [.wrap .toNode [1, 2, 3], .wrap .fromNode [],
    .unwrap .fromNode (TunnelEnd.wrap ⟨Usage.twosKey, .toNode, 0⟩ [1, 2, 3]),
    .unwrap .toNode (TunnelEnd.wrap ⟨Usage.twosKey, .toNode, 0⟩ [1, 2, 3])]

theorem ends_agree_handedBoth :
    (∀ d, (loads handedBoth).countP (·.1 = d) < wordLimit) ∧
      let x := (fresh Usage.twosKey).runAll handedBoth
      (x.packets.map fun p => TunnelEnd.nonceOf p.content).Nodup ∧
        x.readings.map (·.answer) = [.ok [1, 2, 3], .error (.crypto "Reflected payload")] := by
  have hlimit (d : Direction) : (loads handedBoth).countP (·.1 = d) < wordLimit := by
    cases d <;> decide
  obtain ⟨-, -, hnodup, hparcels⟩ := ends_agree Usage.twosKey handedBoth hlimit
  obtain ⟨-, hread⟩ := hparcels ⟨[1, 2, 3], .toNode, _⟩ (.head _)
  refine ⟨hlimit, hnodup, ?_⟩
  have hfar := hread ⟨.fromNode, _, _⟩ (.head _) rfl
  have hnear := hread ⟨.toNode, _, _⟩ (.tail _ (.head _)) rfl
  exact congrArg₂ (fun a b => [a, b]) hfar hnear

end Exchange
end OtaUpgrade
