import Mathlib
import OtaUpgrade.Link.Peripheral
import OtaUpgrade.Proofs.Link.SideBySide

/-!
The nonces under one tunnel key. A link is overheard, to tell the packets that go over it either
way. Between an adapter and the far end of its tunnel these are what the two ends have wrapped, each
counting from zero (`Overheard.Confides`); so the packets of one use of the tunnel bear different
nonces. Nothing survives from one use to the next, and two uses in which the same end wraps anything
begin with the same nonce.
-/
namespace OtaUpgrade

namespace TunnelEnd

/-- The nonce that a packet begins with. -/
def nonceOf (packet : Bytes) : Bytes :=
  packet.take nonceSize

@[simp] theorem nonceOf_wrap (t : TunnelEnd) (payload : Bytes) :
    nonceOf (t.wrap payload) = nonce t.direction t.count := by
  simp [nonceOf, wrap, List.take_left' (length_nonce t.direction t.count)]

/-- The first nonces of a direction. -/
def counted (d : Direction) (count : Nat) : List Bytes :=
  (List.range count).map fun i => nonce d (.ofNat i)

theorem mem_counted {d : Direction} {count : Nat} {n : Bytes} :
    n ∈ counted d count ↔ ∃ i < count, n = nonce d (.ofNat i) := by
  simp [counted, eq_comm]

/-- As long as the count does not start over, no nonce comes twice. -/
theorem nodup_counted (d : Direction) {count : Nat} (h : count ≤ wordLimit) :
    (counted d count).Nodup := by
  apply List.Nodup.map_on
  · intro i hi j hj hij
    obtain ⟨-, hij⟩ := nonce_injective hij
    have hmod := congrArg UInt64.toNat hij
    simp only [UInt64.toNat_ofNat'] at hmod
    simp only [List.mem_range, wordLimit] at hi hj h
    omega
  · exact List.nodup_range

theorem direction_of_mem_counted {d d' : Direction} {count count' : Nat} {n : Bytes}
    (h : n ∈ counted d count) (h' : n ∈ counted d' count') : d = d' := by
  obtain ⟨i, -, rfl⟩ := mem_counted.mp h
  obtain ⟨j, -, hn⟩ := mem_counted.mp h'
  exact (nonce_injective hn).1

/-! ## What an end wraps -/

/-- Payloads as an end wraps them, one after the other. -/
def wrapAll (t : TunnelEnd) : List Bytes → List Bytes
  | [] => []
  | payload :: payloads => t.wrap payload :: t.advance.wrapAll payloads

/-- The end once it has wrapped so many payloads. -/
def advanced (t : TunnelEnd) : Nat → TunnelEnd
  | 0 => t
  | count + 1 => t.advance.advanced count

@[simp] theorem length_wrapAll (t : TunnelEnd) (payloads : List Bytes) :
    (t.wrapAll payloads).length = payloads.length := by
  induction payloads generalizing t with
  | nil => rfl
  | cons payload payloads ih => simp [wrapAll, ih]

theorem wrapAll_append (t : TunnelEnd) (payloads more : List Bytes) :
    t.wrapAll (payloads ++ more)
      = t.wrapAll payloads ++ (t.advanced payloads.length).wrapAll more := by
  induction payloads generalizing t with
  | nil => rfl
  | cons payload payloads ih => simp [wrapAll, advanced, ih]

theorem advanced_add (t : TunnelEnd) (count more : Nat) :
    t.advanced (count + more) = (t.advanced count).advanced more := by
  induction count generalizing t with
  | zero => simp [advanced]
  | succ count ih =>
    have hsucc : count + 1 + more = count + more + 1 := by omega
    rw [hsucc]
    exact ih t.advance

theorem map_nonceOf_wrapAll (t : TunnelEnd) (payloads : List Bytes) :
    (t.wrapAll payloads).map nonceOf
      = (List.range payloads.length).map fun i => nonce t.direction (t.count + .ofNat i) := by
  induction payloads generalizing t with
  | nil => rfl
  | cons payload payloads ih =>
    have hcount (i : Nat) : t.count + 1 + UInt64.ofNat i = t.count + UInt64.ofNat (i + 1) := by
      rw [UInt64.ofNat_add, UInt64.add_assoc, UInt64.add_comm 1]
      rfl
    simp [wrapAll, ih, advance, List.range_succ_eq_map, hcount, Function.comp_def]

/-- From one state of an end to another these packets are what it wraps. -/
def Sends (t : TunnelEnd) (packets : List Bytes) (t' : TunnelEnd) : Prop :=
  ∃ payloads, packets = t.wrapAll payloads ∧ t' = t.advanced payloads.length

theorem Sends.refl (t : TunnelEnd) : t.Sends [] t :=
  ⟨[], rfl, rfl⟩

theorem Sends.wrap (t : TunnelEnd) (payload : Bytes) : t.Sends [t.wrap payload] t.advance :=
  ⟨[payload], rfl, rfl⟩

theorem Sends.trans {t t' t'' : TunnelEnd} {packets more : List Bytes} (h : t.Sends packets t')
    (h' : t'.Sends more t'') : t.Sends (packets ++ more) t'' := by
  obtain ⟨payloads, rfl, rfl⟩ := h
  obtain ⟨further, rfl, rfl⟩ := h'
  refine ⟨payloads ++ further, ?_, ?_⟩
  · rw [wrapAll_append]
  · rw [List.length_append, advanced_add]

end TunnelEnd

/-! ## Overhearing a link -/

/-- A packet on its way over a link. -/
structure Packet where
  direction : Direction
  content : Bytes
  deriving DecidableEq, Repr

/-- The contents of the packets that go one way. -/
def going (d : Direction) (packets : List Packet) : List Bytes :=
  (packets.filter (·.direction = d)).map (·.content)

@[simp] theorem going_nil (d : Direction) : going d [] = [] := rfl

@[simp] theorem going_cons (d : Direction) (p : Packet) (packets : List Packet) :
    going d (p :: packets)
      = if p.direction = d then p.content :: going d packets else going d packets := by
  by_cases hd : p.direction = d <;> simp [going, hd]

@[simp] theorem going_append (d : Direction) (packets more : List Packet) :
    going d (packets ++ more) = going d packets ++ going d more := by
  simp [going]

/-- Every packet goes one way or the other. -/
theorem perm_going (packets : List Packet) :
    (packets.map (·.content)).Perm (going .toNode packets ++ going .fromNode packets) := by
  induction packets with
  | nil => exact .refl []
  | cons p packets ih =>
    cases hd : p.direction with
    | toNode => simpa [hd] using ih
    | fromNode =>
      simp only [List.map_cons, going_cons, hd, reduceCtorEq, if_true, if_false]
      exact (ih.cons p.content).trans List.perm_middle.symm

section counting

variable {key : SecretKey} {packets : List Packet}

/-- Where an end that counts from zero wrapped all that goes one way, the nonces are counted so. -/
theorem map_nonceOf_going {d : Direction}
    (h : ∃ payloads, going d packets = TunnelEnd.wrapAll ⟨key, d, 0⟩ payloads) :
    (going d packets).map TunnelEnd.nonceOf = TunnelEnd.counted d (going d packets).length := by
  obtain ⟨payloads, hp⟩ := h
  rw [hp, TunnelEnd.map_nonceOf_wrapAll, TunnelEnd.length_wrapAll]
  simp [TunnelEnd.counted]

theorem perm_nonces
    (h : ∀ d, ∃ payloads, going d packets = TunnelEnd.wrapAll ⟨key, d, 0⟩ payloads) :
    (packets.map fun p => TunnelEnd.nonceOf p.content).Perm
      (TunnelEnd.counted .toNode (going .toNode packets).length ++
        TunnelEnd.counted .fromNode (going .fromNode packets).length) := by
  have hperm := (perm_going packets).map TunnelEnd.nonceOf
  rw [List.map_map, List.map_append, map_nonceOf_going (h _), map_nonceOf_going (h _)] at hperm
  exact hperm

/-- The ends never share a nonce, and neither uses one twice unless it wraps more than it can
count. -/
theorem nodup_nonces
    (h : ∀ d, ∃ payloads, going d packets = TunnelEnd.wrapAll ⟨key, d, 0⟩ payloads)
    (hlimit : ∀ d, (going d packets).length < wordLimit) :
    (packets.map fun p => TunnelEnd.nonceOf p.content).Nodup := by
  rw [(perm_nonces h).nodup_iff, List.nodup_append]
  refine ⟨TunnelEnd.nodup_counted _ (hlimit _).le, TunnelEnd.nodup_counted _ (hlimit _).le, ?_⟩
  rintro n hn _ hn' rfl
  cases TunnelEnd.direction_of_mem_counted hn hn'

end counting

/-- The packet in which a value is answered. -/
def Answer.packets {α : Type} (a : Answer α) (content : α → Option Bytes) : List Packet :=
  match a with
  | ok value => ((content value).map (Packet.mk .fromNode)).toList
  | failed _ | crash => []

/-- The packet in which a notice comes. -/
def Notice.packets : Notice → List Packet
  | .indication _ value => [⟨.fromNode, value⟩]
  | .disconnected => []

/-- A link with a record of the packets that went over it, oldest first. -/
structure Overheard (σ : Type) where
  inner : σ
  packets : List Packet := []

namespace Overheard

variable {σ : Type}

/-- Records the packets of a call that the link has answered. -/
def hear {α : Type} (o : Overheard σ) (answered : α × σ) (packets : List Packet) :
    α × Overheard σ :=
  (answered.1, { inner := answered.2, packets := o.packets ++ packets })

instance [Link σ] : Link (Overheard σ) where
  connect o := o.hear (Link.connect o.inner) []
  disconnect o := o.hear (Link.disconnect o.inner) []
  discover o := o.hear (Link.discover o.inner) []
  setNotify o channel enabled := o.hear (Link.setNotify o.inner channel enabled) []
  write o channel value :=
    let answered := Link.write o.inner channel value
    o.hear answered (⟨.toNode, value⟩ :: answered.1.packets id)
  read o channel :=
    let answered := Link.read o.inner channel
    o.hear answered (answered.1.packets some)
  mtu o := Link.mtu o.inner
  takeNotices o :=
    let taken := Link.takeNotices o.inner
    o.hear taken (taken.1.flatMap Notice.packets)

/-- Whoever uses a link does not notice that it is overheard. -/
theorem unveils [Link σ] : Unveils (Overheard.inner : Overheard σ → σ) where
  connect _ := rfl
  disconnect _ := rfl
  discover _ := rfl
  setNotify _ _ _ := rfl
  write _ _ _ := rfl
  read _ _ := rfl
  takeNotices _ := rfl

end Overheard

/-! ## The far end -/

namespace SealedLink

variable {σ : Type} [Link σ]

/-- Whatever is written, the far end wraps the answer. -/
theorem sends_write (l : SealedLink σ) (channel : Characteristic) (wrapped : Bytes) :
    l.far.Sends (going .fromNode ((Link.write l channel wrapped).1.packets id))
      (Link.write l channel wrapped).2.far := by
  simp only [Link.write, writeThrough]
  cases l.far.unwrap wrapped with
  | error e => exact .refl _
  | ok payload =>
    simp only [inside]
    rcases Link.write l.inner channel payload with ⟨answer, inner⟩
    cases answer with
    | ok response =>
      cases response with
      | none => exact .refl _
      | some response => exact .wrap _ response
    | failed | crash => exact .refl _

theorem sends_read (l : SealedLink σ) (channel : Characteristic) :
    l.far.Sends (going .fromNode ((Link.read l channel).1.packets some))
      (Link.read l channel).2.far := by
  simp only [Link.read, readThrough, inside]
  rcases Link.read l.inner channel with ⟨answer, inner⟩
  cases answer with
  | ok value => exact .wrap _ value
  | failed | crash => exact .refl _

omit [Link σ] in
theorem sends_sealNotices (l : SealedLink σ) (notices : List Notice) :
    l.far.Sends (going .fromNode ((l.sealNotices notices).1.flatMap Notice.packets))
      (l.sealNotices notices).2.far := by
  induction notices generalizing l with
  | nil => exact .refl _
  | cons notice notices ih =>
    cases notice with
    | disconnected => exact ih l
    | indication channel value => exact (TunnelEnd.Sends.wrap l.far value).trans (ih _)

theorem sends_takeNotices (l : SealedLink σ) :
    l.far.Sends (going .fromNode ((Link.takeNotices l).1.flatMap Notice.packets))
      (Link.takeNotices l).2.far :=
  sends_sealNotices { l with inner := (Link.takeNotices l.inner).2 } (Link.takeNotices l.inner).1

end SealedLink

/-- Nothing that is answered or noticed goes to the node. -/
theorem Answer.going_packets {α : Type} (a : Answer α) (content : α → Option Bytes) :
    going .toNode (a.packets content) = [] := by
  cases a with
  | ok value =>
    simp only [packets]
    cases content value <;> simp
  | failed | crash => rfl

theorem Notice.going_packets (notices : List Notice) :
    going .toNode (notices.flatMap Notice.packets) = [] := by
  induction notices with
  | nil => rfl
  | cons notice notices ih => cases notice <;> simp [packets, ih]

/-! ## Adapters -/

section adapter

variable {σ : Type}

/-- What has gone either way over a link is what the two ends of the tunnel have wrapped under their
key. -/
structure Overheard.Confides (key : SecretKey) (near : TunnelEnd) (o : Overheard (SealedLink σ)) :
    Prop where
  near : TunnelEnd.Sends ⟨key, .toNode, 0⟩ (going .toNode o.packets) near
  far : TunnelEnd.Sends ⟨key, .fromNode, 0⟩ (going .fromNode o.packets) o.inner.far

/-- All that has gone over the link of an adapter was wrapped. -/
def Adapter.Confides (key : SecretKey) (a : Adapter (Overheard (SealedLink σ))) : Prop :=
  ∃ near address, a.carriage = .tunnel near address ∧ a.link.Confides key near

variable [Link σ] {key : SecretKey}

/-- Whatever the adapter calls for, only wrapped payloads go over the link. -/
theorem Overheard.Confides.perform {near : TunnelEnd} {o : Overheard (SealedLink σ)}
    (h : o.Confides key near) (address : UInt16) (call : DeviceCall) :
    ∃ near', ((Carriage.tunnel near address).perform o call).2.1 = .tunnel near' address ∧
      ((Carriage.tunnel near address).perform o call).2.2.Confides key near' := by
  -- without a packet the ends stay as they are
  have silent (inner : SealedLink σ) (hf : inner.far = o.inner.far) :
      (⟨inner, o.packets ++ []⟩ : Overheard (SealedLink σ)).Confides key near := by
    refine ⟨?_, ?_⟩
    · simpa using h.near
    · simpa [hf] using h.far
  cases call with
  | connect | disconnect | discover | enableNotifications => exact ⟨near, rfl, silent _ rfl⟩
  | write channel data =>
    refine ⟨near.advance, rfl, ?_, ?_⟩
    · have hsent := h.near.trans (.wrap near data)
      simpa [Carriage.perform, Carriage.outgoing, Link.write, Overheard.hear,
        Answer.going_packets] using hsent
    · have hsent := h.far.trans (o.inner.sends_write channel (near.wrap data))
      simpa [Carriage.perform, Carriage.outgoing, Link.write, Overheard.hear] using hsent
  | read channel =>
    refine ⟨near, rfl, ?_, ?_⟩
    · simpa [Carriage.perform, Link.read, Overheard.hear, Answer.going_packets] using h.near
    · have hsent := h.far.trans (o.inner.sends_read channel)
      simpa [Carriage.perform, Link.read, Overheard.hear] using hsent

theorem Overheard.Confides.takeNotices {near : TunnelEnd} {o : Overheard (SealedLink σ)}
    (h : o.Confides key near) : (Link.takeNotices o).2.Confides key near := by
  refine ⟨?_, ?_⟩
  · simpa [Link.takeNotices, Overheard.hear, Notice.going_packets] using h.near
  · have hsent := h.far.trans o.inner.sends_takeNotices
    simpa [Link.takeNotices, Overheard.hear] using hsent

theorem Adapter.Confides.operate {a : Adapter (Overheard (SealedLink σ))} (h : a.Confides key)
    (op : Operation) : (a.operate op).1.Confides key := by
  obtain ⟨near, address, hc, hlink⟩ := h
  cases op with
  | bind | release => exact ⟨near, address, hc, hlink⟩
  | submit call =>
    simp only [Adapter.operate, Adapter.submit]
    split <;> exact ⟨near, address, hc, hlink⟩
  | work =>
    simp only [Adapter.operate, Adapter.step]
    cases a.stage with
    | resting =>
      cases a.jobs with
      | nil => exact ⟨near, address, hc, hlink⟩
      | cons call jobs =>
        obtain ⟨near', hc', hlink'⟩ := hlink.perform address call
        rw [hc]
        dsimp only
        split <;> exact ⟨near', address, hc', hlink'⟩
    | executed e => exact ⟨near, address, hc, hlink.takeNotices⟩
    | collected e notices => exact ⟨near, address, hc, hlink⟩

theorem Adapter.Confides.operateAll {a : Adapter (Overheard (SealedLink σ))} (h : a.Confides key)
    (ops : List Operation) : (a.operateAll ops).1.Confides key := by
  induction ops generalizing a with
  | nil => exact h
  | cons op ops ih => exact ih (h.operate op)

end adapter

/-! ## Uses of one key -/

/-- One use of a tunnel: the adapter at its near end, the link at its far end, and all that is done
with the adapter. -/
structure Usage (σ : Type) where
  name : String
  address : UInt16
  link : σ
  operations : List Operation

namespace Usage

variable {σ : Type} [Link σ] (key : SecretKey)

/-- The fresh adapter of a use under a key. Its tunnel is overheard. -/
def adapter (u : Usage σ) : Adapter (Overheard (SealedLink σ)) :=
  { name := u.name, carriage := .tunnelTo u.address key, link := ⟨.ofKey key u.link, []⟩ }

/-- The packets that go over the tunnel. -/
def packets (u : Usage σ) : List Packet :=
  ((u.adapter key).operateAll u.operations).1.link.packets

/-- The nonces of a use of the tunnel. -/
def nonces (u : Usage σ) : List Bytes :=
  (u.packets key).map fun p => TunnelEnd.nonceOf p.content

/-- Overhearing changes nothing: the adapter posts what it posts otherwise, and comes to the same
state. -/
theorem operateAll_unheard (u : Usage σ) :
    (Adapter.tunnelled u.name u.address key u.link).operateAll u.operations
      = (((u.adapter key).operateAll u.operations).1.unveiled Overheard.inner,
        ((u.adapter key).operateAll u.operations).2) :=
  Adapter.operateAll_unveiled Overheard.unveils (u.adapter key) u.operations

/-- All that goes over the tunnel was wrapped by one of its ends, which counts from zero. -/
theorem going_packets (u : Usage σ) (d : Direction) :
    ∃ payloads, going d (u.packets key) = TunnelEnd.wrapAll ⟨key, d, 0⟩ payloads := by
  have hfresh : (u.adapter key).Confides key := ⟨_, u.address, rfl, .refl _, .refl _⟩
  obtain ⟨near, address, -, hlink⟩ := hfresh.operateAll u.operations
  cases d with
  | toNode =>
    obtain ⟨payloads, hp, -⟩ := hlink.near
    exact ⟨payloads, hp⟩
  | fromNode =>
    obtain ⟨payloads, hp, -⟩ := hlink.far
    exact ⟨payloads, hp⟩

theorem perm_nonces (u : Usage σ) :
    (u.nonces key).Perm
      (TunnelEnd.counted .toNode (going .toNode (u.packets key)).length ++
        TunnelEnd.counted .fromNode (going .fromNode (u.packets key)).length) :=
  OtaUpgrade.perm_nonces (u.going_packets key)

theorem mem_nonces_iff (u : Usage σ) (n : Bytes) :
    n ∈ u.nonces key ↔ ∃ d, n ∈ TunnelEnd.counted d (going d (u.packets key)).length := by
  rw [(u.perm_nonces key).mem_iff, List.mem_append]
  constructor
  · rintro (hn | hn)
    · exact ⟨.toNode, hn⟩
    · exact ⟨.fromNode, hn⟩
  · rintro ⟨d, hn⟩
    cases d with
    | toNode => exact .inl hn
    | fromNode => exact .inr hn

/-- Within one use no nonce comes twice, unless an end wraps more than it can count. -/
theorem nodup_nonces (u : Usage σ)
    (hlimit : ∀ d, (going d (u.packets key)).length < wordLimit) : (u.nonces key).Nodup :=
  OtaUpgrade.nodup_nonces (u.going_packets key) hlimit

/-- Two uses have no nonce in common unless the same end wraps something in both. -/
theorem disjoint_nonces_iff (u v : Usage σ) :
    (u.nonces key).Disjoint (v.nonces key) ↔
      ∀ d, going d (u.packets key) = [] ∨ going d (v.packets key) = [] := by
  constructor
  · intro h d
    by_contra hboth
    simp only [not_or, ← List.length_pos_iff] at hboth
    -- the first nonce of this direction
    apply h (a := TunnelEnd.nonce d (.ofNat 0))
    · exact (u.mem_nonces_iff key _).mpr ⟨d, TunnelEnd.mem_counted.mpr ⟨0, hboth.1, rfl⟩⟩
    · exact (v.mem_nonces_iff key _).mpr ⟨d, TunnelEnd.mem_counted.mpr ⟨0, hboth.2, rfl⟩⟩
  · intro h n hu hv
    obtain ⟨d, hn⟩ := (u.mem_nonces_iff key n).mp hu
    obtain ⟨d', hn'⟩ := (v.mem_nonces_iff key n).mp hv
    obtain rfl := TunnelEnd.direction_of_mem_counted hn hn'
    rcases h d with hnone | hnone
    · simp [hnone, TunnelEnd.counted] at hn
    · simp [hnone, TunnelEnd.counted] at hn'

/-- The nonces under one key. Whatever is done in any number of uses of a tunnel, all that goes over
it was wrapped by an end that counts from zero; and no nonce comes twice if and only if no end wraps
anything in more than one of them. -/
theorem nonces_nodup_iff (us : List (Usage σ))
    (hlimit : ∀ u ∈ us, ∀ d, (going d (u.packets key)).length < wordLimit) :
    (∀ u ∈ us, ∀ d, ∃ payloads,
        going d (u.packets key) = TunnelEnd.wrapAll ⟨key, d, 0⟩ payloads) ∧
      ((us.flatMap (nonces key)).Nodup ↔
        us.Pairwise fun u v =>
          ∀ d, going d (u.packets key) = [] ∨ going d (v.packets key) = []) := by
  constructor
  · intro u _ d
    exact u.going_packets key d
  · rw [List.nodup_flatMap]
    constructor
    · rintro ⟨-, hdisjoint⟩
      exact hdisjoint.imp fun h => (disjoint_nonces_iff key _ _).mp h
    · intro hapart
      refine ⟨fun u hu => u.nodup_nonces key (hlimit u hu), ?_⟩
      exact hapart.imp fun h => (disjoint_nonces_iff key _ _).mpr h

/-- The adapter connects to a peripheral and reads what runs on it. -/
def reading : Usage Peripheral where
  name := "node"
  address := 5
  link := { setup := { appInfo := some ⟨1, 2, 3⟩ } }
  operations := [.submit .connect, .work, .work, .work, .submit (.read .appInfo), .work]

/-- A key of twos. -/
def twosKey : SecretKey := ⟨.replicate 32 2, rfl⟩

theorem length_going_reading (d : Direction) :
    (going d (reading.packets twosKey)).length < wordLimit := by
  cases d <;> decide +kernel

theorem nonces_nodup_reading :
    (∀ u ∈ [reading, reading], ∀ d, (going d (u.packets twosKey)).length < wordLimit) ∧
      (∀ u ∈ [reading, reading], ∀ d, ∃ payloads,
        going d (u.packets twosKey) = TunnelEnd.wrapAll ⟨twosKey, d, 0⟩ payloads) ∧
      (([reading, reading].flatMap (nonces twosKey)).Nodup ↔
        [reading, reading].Pairwise fun u v =>
          ∀ d, going d (u.packets twosKey) = [] ∨ going d (v.packets twosKey) = []) := by
  have hlimit :
      ∀ u ∈ [reading, reading], ∀ d, (going d (u.packets twosKey)).length < wordLimit := by
    intro u hu d
    obtain rfl : u = reading := by simpa using hu
    exact length_going_reading d
  exact ⟨hlimit, nonces_nodup_iff twosKey [reading, reading] hlimit⟩

/-- Both times the value that is read comes under the first nonce of its direction. -/
theorem nonce_reused :
    (∀ d, (going d (reading.packets twosKey)).length < wordLimit) ∧
      TunnelEnd.nonce .fromNode 0 ∈ reading.nonces twosKey ∧
      ¬ ([reading, reading].flatMap (nonces twosKey)).Nodup := by
  have hpacket : 0 < (going .fromNode (reading.packets twosKey)).length := by decide +kernel
  have hmem : TunnelEnd.nonce .fromNode 0 ∈ reading.nonces twosKey :=
    (reading.mem_nonces_iff twosKey _).mpr
      ⟨.fromNode, TunnelEnd.mem_counted.mpr ⟨0, hpacket, rfl⟩⟩
  refine ⟨length_going_reading, hmem, ?_⟩
  intro hnodup
  simp only [List.flatMap_cons, List.flatMap_nil, List.append_nil, List.nodup_append] at hnodup
  exact hnodup.2.2 _ hmem _ hmem rfl

end Usage
end OtaUpgrade
