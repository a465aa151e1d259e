import Mathlib
import OtaUpgrade.Config.File
import OtaUpgrade.Link.Carriage

/-!
Settings that come from a file leave room on every route. An integer in a TOML document fits 64 bits
with its sign, so the bytes that such settings allow for the write header, with those that a tunnel
adds, fit a word. Only what stands at the top of the document matters here, where the settings look
for the number.
-/
namespace OtaUpgrade

namespace Toml

/-- The value, if it is an integer, is below the largest that 64 bits with a sign hold. -/
def Node.Fits : Node → Prop
  | .integer i => i < 0x8000000000000000
  | _ => True

/-- All integers among the entries fit. -/
def Entries.Fit (es : Entries) : Prop :=
  ∀ x ∈ es, x.2.Fits

/-! ## Values -/

theorem lt_of_fitting? {i j : Int} (h : fitting? i = some j) : j < 0x8000000000000000 := by
  unfold fitting? at h
  split at h
  · cases h
    omega
  · cases h

theorem lt_of_readBased? {base : Nat} {cs rest : List Char} {i : Int}
    (h : readBased? base cs = some (i, rest)) : i < 0x8000000000000000 := by
  unfold readBased? at h
  split at h
  · cases h
  · obtain ⟨j, hj, heq⟩ := Option.map_eq_some_iff.mp h
    cases heq
    exact lt_of_fitting? hj

theorem lt_of_readInteger? {cs rest : List Char} {i : Int}
    (h : readInteger? cs = some (i, rest)) : i < 0x8000000000000000 := by
  unfold readInteger? at h
  split at h
  · exact lt_of_readBased? h
  · exact lt_of_readBased? h
  · exact lt_of_readBased? h
  · dsimp only at h
    split at h
    · cases h
    · obtain ⟨j, hj, heq⟩ := Option.map_eq_some_iff.mp h
      cases heq
      exact lt_of_fitting? hj

theorem fits_of_takeNumber? {cs rest : List Char} {node : Node}
    (h : takeNumber? cs = some (node, rest)) : node.Fits := by
  unfold takeNumber? at h
  split at h
  · cases h
    trivial
  · split at h
    · cases h
      trivial
    · obtain ⟨⟨i, rest'⟩, hi, heq⟩ := Option.map_eq_some_iff.mp h
      cases heq
      exact lt_of_readInteger? hi

/-- What is read becomes a value that fits, whatever was read. -/
theorem fits_of_map {α : Type} {f : α → Node × List Char} {read : Option α} {rest : List Char}
    {node : Node} (h : read.map f = some (node, rest)) (hf : ∀ x, (f x).1.Fits) : node.Fits := by
  obtain ⟨x, -, heq⟩ := Option.map_eq_some_iff.mp h
  have hx := hf x
  rw [heq] at hx
  exact hx

theorem fits_of_takeScalar? {cs rest : List Char} {node : Node}
    (h : takeScalar? cs = some (node, rest)) : node.Fits := by
  unfold takeScalar? at h
  split at h
  · cases h
    trivial
  · cases h
    trivial
  · exact fits_of_map h fun _ => trivial
  · exact fits_of_map h fun _ => trivial
  · exact fits_of_takeNumber? h

theorem fits_of_takeValue? {depth : Nat} {cs rest : List Char} {node : Node}
    (h : takeValue? depth cs = some (node, rest)) : node.Fits := by
  unfold takeValue? at h
  split at h
  · cases h
  · cases h
  · exact fits_of_map h fun _ => trivial
  · split at h
    · cases h
      trivial
    · exact fits_of_map h fun _ => trivial
  · exact fits_of_takeScalar? h

theorem fits_of_takePair? {depth : Nat} {cs rest : List Char} {key : List String} {node : Node}
    (h : takePair? (takeValue? depth) cs = some ((key, node), rest)) : node.Fits := by
  unfold takePair? at h
  split at h
  · split at h
    · next hv =>
      cases h
      exact fits_of_takeValue? hv
    · cases h
  · cases h

/-! ## Entries -/

namespace Entries

variable {es es' : Entries} {key : String} {node : Node}

theorem Fit.nil : Fit [] :=
  List.forall_mem_nil _

theorem Fit.concat (h : es.Fit) (key : String) (hn : node.Fits) : Fit (es ++ [(key, node)]) :=
  List.forall_mem_append.mpr ⟨h, List.forall_mem_singleton.mpr hn⟩

theorem Fit.replace (h : es.Fit) (key : String) (hn : node.Fits) : (es.replace key node).Fit := by
  intro x hx
  obtain ⟨⟨k, n⟩, hmem, rfl⟩ := List.mem_map.mp hx
  dsimp only
  split
  · exact hn
  · exact h _ hmem

/-- What is changed further down comes back as a value that fits. -/
theorem Fit.map_replace (h : es.Fit) {changed : Option Entries} {value : Entries → Node}
    (hc : changed.map (fun inner => es.replace key (value inner)) = some es')
    (hv : ∀ inner, (value inner).Fits) : es'.Fit := by
  obtain ⟨inner, -, rfl⟩ := Option.map_eq_some_iff.mp hc
  exact h.replace key (hv inner)

/-- Giving a value to a key puts it at the top, or changes a table. -/
theorem Fit.addDotted? (h : es.Fit) (hn : node.Fits) {path : List String}
    (ha : es.addDotted? key node path = some es') : es'.Fit := by
  unfold Entries.addDotted? at ha
  split at ha
  · unfold add? at ha
    split at ha
    · cases ha
    · cases ha
      exact h.concat key hn
  · split at ha
    · split at ha
      · cases ha
        exact h.concat _ trivial
      · cases ha
    · exact h.map_replace ha fun _ => trivial
    · split at ha
      · cases ha
      · exact h.map_replace ha fun _ => trivial
    · split at ha
      · cases ha
      · exact h.map_replace ha fun _ => trivial
    · cases ha

/-- Behind a path of headers only a table changes. -/
theorem Fit.within? (h : es.Fit) {change : Entries → Option Entries}
    (hc : ∀ es', change es = some es' → es'.Fit) {path : List String}
    (hw : es.within? change path = some es') : es'.Fit := by
  unfold Entries.within? at hw
  split at hw
  · exact hc es' hw
  · split at hw
    · split at hw
      · cases hw
        exact h.concat _ trivial
      · cases hw
    · cases hw
    · exact h.map_replace hw fun _ => trivial
    · exact h.map_replace hw fun _ => trivial
    · cases hw

theorem Fit.openTable? (h : es.Fit) (ho : Entries.openTable? key es = some es') : es'.Fit := by
  unfold Entries.openTable? at ho
  split at ho
  · cases ho
    exact h.concat key trivial
  · cases ho
    exact h.replace key trivial
  · cases ho

theorem Fit.openNext? (h : es.Fit) (ho : Entries.openNext? key es = some es') : es'.Fit := by
  unfold Entries.openNext? at ho
  split at ho
  · cases ho
    exact h.concat key trivial
  · cases ho
    exact h.replace key trivial
  · cases ho

end Entries

/-! ## Documents -/

namespace Document

variable {d d' : Document}

theorem fit_addPair? (h : d.entries.Fit) {key : List String} {node : Node} (hn : node.Fits)
    (ha : d.addPair? key node = some d') : d'.entries.Fit := by
  obtain ⟨entries, hw, rfl⟩ := Option.map_eq_some_iff.mp ha
  refine h.within? (fun es' hc => ?_) hw
  unfold Toml.addPair? at hc
  split at hc
  · exact h.addDotted? hn hc
  · cases hc

theorem fit_open? (h : d.entries.Fit) {header : List String}
    {change : String → Entries → Option Entries}
    (hc : ∀ key es', change key d.entries = some es' → es'.Fit)
    (ho : d.open? header change = some d') : d'.entries.Fit := by
  unfold open? at ho
  split at ho
  · cases ho
  · next key _ =>
    obtain ⟨entries, hw, rfl⟩ := Option.map_eq_some_iff.mp ho
    exact h.within? (hc key) hw

theorem fit_statement? (h : d.entries.Fit) {cs rest : List Char}
    (hs : d.statement? cs = some (d', rest)) : d'.entries.Fit := by
  unfold statement? at hs
  split at hs
  · split at hs
    · split at hs
      · next ho _ =>
        cases hs
        exact fit_open? h (fun _ _ => h.openNext?) ho
      · cases hs
    · cases hs
  · split at hs
    · split at hs
      · next ho _ =>
        cases hs
        exact fit_open? h (fun _ _ => h.openTable?) ho
      · cases hs
    · cases hs
  -- a line without a statement
  iterate 3
    obtain ⟨rest', -, heq⟩ := Option.map_eq_some_iff.mp hs
    cases heq
    exact h
  · split at hs
    · cases hs
    · next hp =>
      split at hs
      · next ha _ =>
        cases hs
        exact fit_addPair? h (fits_of_takePair? hp) ha
      · cases hs

theorem fit_statements? (h : d.entries.Fit) {count : Nat} {cs : List Char}
    (hs : d.statements? count cs = some d') : d'.entries.Fit := by
  induction count generalizing d cs with
  | zero => cases hs
  | succ count ih =>
    unfold statements? at hs
    split at hs
    · cases hs
      exact h
    · split at hs
      · next hst => exact ih (fit_statement? h hst) hs
      · cases hs

end Document

/-- The integers at the top of a document fit. -/
theorem fit_of_read? {text : String} {es : Entries} (h : read? text = some es) : es.Fit := by
  obtain ⟨d, hd, rfl⟩ := Option.map_eq_some_iff.mp h
  exact Document.fit_statements? .nil hd

theorem Entries.Fit.lt_of_readD {es : Entries} (h : es.Fit) {key : String} {limit default n : Nat}
    (hd : default < 0x8000000000000000)
    (hr : es.readD key (Node.natural? limit) default = some n) : n < 0x8000000000000000 := by
  unfold readD at hr
  split at hr
  · next node hnode =>
    obtain ⟨front, back, rfl, -⟩ := List.lookup_eq_some_iff.mp hnode
    have hfits : node.Fits := h (key, node) (by simp)
    unfold Node.natural? at hr
    split at hr
    · split at hr
      · cases hr
        exact Int.ofNat_lt.mp hfits
      · cases hr
    · cases hr
  · cases hr
    exact hd

end Toml

namespace Config

theorem attOverhead_lt_of_ofEntries? {es : Toml.Entries} (h : es.Fit) {c : Config}
    (hc : ofEntries? es = some c) : c.attOverhead < 0x8000000000000000 := by
  simp only [ofEntries?, Option.bind_eq_bind, Option.bind_eq_some_iff] at hc
  obtain ⟨chunkSize, -, attOverhead, hatt, timeouts, -, dfu, -, heq⟩ := hc
  cases heq
  exact h.lt_of_readD (by decide) hatt

theorem attOverhead_lt_of_parse {text : String} {c : Config} (h : parse text = .ok c) :
    c.attOverhead < 0x8000000000000000 := by
  unfold parse at h
  split at h
  · cases h
  · next hc =>
    split at h
    · cases h
      unfold ofToml? at hc
      split at hc
      · next hr => exact attOverhead_lt_of_ofEntries? (Toml.fit_of_read? hr) hc
      · cases hc
    · cases h

/-- On every route, what settings from a file allow for the write header leaves room in a word for
what the route adds. -/
theorem room_of_load {files : Files} {path : String} {c : Config} (h : load files path = .ok c)
    (carriage : Carriage) : c.attOverhead + carriage.overhead < wordLimit := by
  have hatt : c.attOverhead < 0x8000000000000000 := by
    unfold load at h
    split at h
    · exact attOverhead_lt_of_parse h
    · cases h
  have hover : carriage.overhead ≤ 28 := by
    cases carriage with
    | plain => exact Nat.zero_le _
    | tunnel near address => exact Nat.le_refl _
  simp only [wordLimit]
  omega

end Config
end OtaUpgrade
