import Mathlib
import OtaUpgrade.Proofs.Toml.Numerals

/-!
A document that was written is read back as it was: the keys with their values, and the tables in
their order. Each line that the writer puts down is one statement to the reader, and takes the tree
read so far one entry further. Where the keys of a table go is kept apart from the lines: a `Slot` is
the document around the table whose keys come next, and it takes any new key with any value.
-/
namespace OtaUpgrade.Toml

variable {c : Char} {cs rest : List Char}

/-! ## Values -/

theorem takeValue?_of_scalar (depth : Nat) (hb : c ≠ '[') (hc : c ≠ '\x7b') :
    takeValue? depth (c :: cs) = takeScalar? (c :: cs) := by
  rw [takeValue?.eq_def]
  split <;> simp_all

theorem head_write (s : String) :
    ∃ m cs, (write s).toList = m :: cs ∧ (m = '"' ∨ m = '\'') := by
  unfold write
  rw [String.toList_ofList]
  split <;> simp

theorem head_toString (i : Int) :
    ∃ d cs, (toString i).toList = d :: cs ∧ (d = '-' ∨ isDigit d = true) := by
  rw [toList_toString]
  unfold signed
  split
  · simp
  · obtain ⟨d, cs, h, hd, -⟩ := (Decimal.toDigits i.natAbs).exists_cons
    exact ⟨d, cs, h, .inr hd⟩

theorem takeValue?_text (s : String) (depth : Nat) (rest : List Char) :
    takeValue? depth ((write s).toList ++ '\n' :: rest) = some (.text s, '\n' :: rest)
      ∧ skipBlanks ((write s).toList ++ '\n' :: rest) = (write s).toList ++ '\n' :: rest := by
  have hread := readText?_write s rest
  obtain ⟨m, cs, hm, hmark⟩ := head_write s
  rw [hm, List.cons_append] at hread ⊢
  rcases hmark with rfl | rfl
  · rw [takeValue?_of_scalar depth (by decide) (by decide)]
    exact ⟨by simp [takeScalar?, hread], rfl⟩
  · rw [takeValue?_of_scalar depth (by decide) (by decide)]
    exact ⟨by simp [takeScalar?, hread], rfl⟩

theorem takeValue?_integer {i : Int} (h : (fitting? i).isSome) (depth : Nat) (rest : List Char) :
    takeValue? depth ((toString i).toList ++ '\n' :: rest) = some (.integer i, '\n' :: rest)
      ∧ skipBlanks ((toString i).toList ++ '\n' :: rest) = (toString i).toList ++ '\n' :: rest := by
  have hread := takeNumber?_toString h rest
  obtain ⟨d, cs, hd, hsign⟩ := head_toString i
  rw [hd, List.cons_append] at hread ⊢
  -- None of the characters that open a value of another kind is a digit or a minus.
  have hne (m : Char) (hm : isDigit m = false) (hs : '-' ≠ m) : d ≠ m := by
    rcases hsign with rfl | hdigit
    · exact hs
    · exact ne_of_test hdigit hm
  have hscalar : takeScalar? (d :: (cs ++ '\n' :: rest)) = takeNumber? (d :: (cs ++ '\n' :: rest)) := by
    have ht := hne 't' (by decide) (by decide)
    have hf := hne 'f' (by decide) (by decide)
    have hq := hne '"' (by decide) (by decide)
    have ha := hne '\'' (by decide) (by decide)
    simp [takeScalar?, ht, hf, hq, ha]
  rw [takeValue?_of_scalar depth (hne _ (by decide) (by decide)) (hne _ (by decide) (by decide)),
    hscalar]
  have hs := hne ' ' (by decide) (by decide)
  have htab := hne '\t' (by decide) (by decide)
  exact ⟨hread, by simp [skipBlanks, isBlank, hs, htab]⟩

/-- A plain value that was written is read back, up to the end of its line, and stands right at the
front. -/
theorem takeValue?_writeValue {node : Node} {value : String} (h : writeValue node = .ok value)
    (hf : node.fits = true) (depth : Nat) (rest : List Char) :
    takeValue? depth (value.toList ++ '\n' :: rest) = some (node, '\n' :: rest)
      ∧ skipBlanks (value.toList ++ '\n' :: rest) = value.toList ++ '\n' :: rest := by
  cases node with
  | text s =>
    simp only [writeValue] at h
    split at h
    · cases h
      exact takeValue?_text s depth rest
    · cases h
  | integer i =>
    cases h
    exact takeValue?_integer hf depth rest
  | _ => cases h

/-! ## Keys -/

/-- A key that needs no marks around it. -/
@[mk_iff]
structure Bare (key : String) : Prop where
  chars : ∀ c ∈ key.toList, isBare c = true
  ne_nil : key.toList ≠ []

namespace Bare

variable {key : String}

theorem exists_cons (h : Bare key) : ∃ c cs, key.toList = c :: cs ∧ isBare c = true := by
  obtain ⟨c, cs, hcs⟩ := List.exists_cons_of_ne_nil h.ne_nil
  exact ⟨c, cs, hcs, h.chars c (hcs ▸ List.mem_cons_self)⟩

theorem skipBlanks (h : Bare key) : skipBlanks (key.toList ++ rest) = key.toList ++ rest := by
  obtain ⟨c, cs, hcs, hc⟩ := h.exists_cons
  have hs := ne_of_test hc (d := ' ') (by decide)
  have ht := ne_of_test hc (d := '\t') (by decide)
  simp [hcs, Toml.skipBlanks, isBlank, hs, ht]

theorem takeKeyPart? (h : Bare key) (hc : isBare c = false) :
    takeKeyPart? (key.toList ++ c :: rest) = some (key, c :: rest) := by
  have hwhile : (key.toList ++ c :: rest).takeWhile isBare = key.toList := by
    rw [List.takeWhile_append_of_pos h.chars]
    simp [hc]
  obtain ⟨d, cs, hcs, hd⟩ := h.exists_cons
  have hq := ne_of_test hd (d := '"') (by decide)
  have ha := ne_of_test hd (d := '\'') (by decide)
  rw [Toml.takeKeyPart?]
  · simp [hwhile, h.ne_nil]
  · simp [hcs, hq]
  · simp [hcs, ha]

/-- A bare key is read back, with the blanks behind it. -/
theorem takeKey? (h : Bare key) (hc : isBare c = false)
    (hp : ∀ t, Toml.skipBlanks (c :: rest) ≠ '.' :: t) :
    takeKey? (key.toList ++ c :: rest) = some ([key], Toml.skipBlanks (c :: rest)) := by
  have hparts : nestingLimit - 1 = 78 + 1 := rfl
  rw [Toml.takeKey?, hparts, takeKeyParts?, h.skipBlanks, h.takeKeyPart? hc]
  dsimp only
  split
  · rename_i t heq
    exact absurd heq (hp t)
  · rfl

end Bare

/-! ## Lines -/

theorem finishLine?_lineEnd (rest : List Char) : finishLine? ('\n' :: rest) = some rest := rfl

/-- The line of a key and its value. -/
theorem writePair_eq {key line : String} {node : Node} (h : writePair key node = .ok line) :
    ∃ value, writeValue node = .ok value ∧
      line.toList = key.toList ++ ' ' :: '=' :: ' ' :: (value.toList ++ ['\n']) := by
  unfold writePair at h
  cases hv : writeValue node with
  | error e => simp [hv] at h
  | ok value =>
    rw [hv] at h
    cases h
    exact ⟨value, rfl, by simp [toString]⟩

/-- The line of a key and its value is read back. -/
theorem takePair?_writePair {key line : String} {node : Node} (hk : Bare key)
    (h : writePair key node = .ok line) (hf : node.fits = true) (depth : Nat) (rest : List Char) :
    takePair? (takeValue? depth) (line.toList ++ rest) = some (([key], node), '\n' :: rest) := by
  obtain ⟨value, hv, hline⟩ := writePair_eq h
  obtain ⟨hread, hfront⟩ := takeValue?_writeValue hv hf depth rest
  have htake : takeKey? (key.toList ++ ' ' :: '=' :: ' ' :: (value.toList ++ '\n' :: rest))
      = some ([key], '=' :: ' ' :: (value.toList ++ '\n' :: rest)) :=
    hk.takeKey? (by decide) (by simp [skipBlanks, isBlank])
  have hgap : skipBlanks (' ' :: (value.toList ++ '\n' :: rest)) = value.toList ++ '\n' :: rest := hfront
  simp only [hline, List.append_assoc, List.cons_append, List.nil_append, takePair?, htake, hgap, hread]

/-- A table's header is read back. -/
theorem takeKey?_header {key : String} (hk : Bare key) (rest : List Char) :
    takeKey? (key.toList ++ ']' :: rest) = some ([key], ']' :: rest) :=
  hk.takeKey? (by decide) (by simp [skipBlanks, isBlank])

/-! ## Entries -/

namespace Entries

variable {es : Entries} {key : String} {node : Node}

/-- The keys, in order of appearance. -/
def keys (es : Entries) : List String :=
  es.map Prod.fst

@[simp] theorem keys_cons (x : String × Node) (es : Entries) : keys (x :: es) = x.1 :: es.keys := rfl

@[simp] theorem keys_append (es more : Entries) : keys (es ++ more) = es.keys ++ more.keys :=
  List.map_append

theorem find?_of_not_mem (h : key ∉ es.keys) : es.find? key = none := by
  refine List.lookup_eq_none_iff.mpr fun x hx => bne_iff_ne.mpr ?_
  rintro rfl
  exact h (List.mem_map_of_mem hx)

theorem replace_of_not_mem (h : key ∉ es.keys) (node : Node) : es.replace key node = es := by
  refine (List.map_congr_left fun x hx => if_neg ?_).trans (List.map_id es)
  rintro rfl
  exact h (List.mem_map_of_mem hx)

theorem find?_concat (h : key ∉ es.keys) (node : Node) : find? (es ++ [(key, node)]) key = some node := by
  have hnone : es.lookup key = none := find?_of_not_mem h
  simp [find?, List.lookup_append, hnone]

theorem replace_concat (h : key ∉ es.keys) (old node : Node) :
    replace (es ++ [(key, old)]) key node = es ++ [(key, node)] := by
  have hes := replace_of_not_mem h node
  simp only [replace, List.map_append] at hes ⊢
  rw [hes]
  simp

theorem not_mem_of_nodup {x : String × Node} {more : Entries} (h : (es ++ x :: more).keys.Nodup) :
    x.1 ∉ es.keys := by
  rw [keys_append, keys_cons] at h
  exact fun hmem => (List.nodup_append.mp h).2.2 x.1 hmem x.1 List.mem_cons_self rfl

end Entries

/-! ## Places for keys -/

/-- A document around a table whose keys come next. -/
structure Slot (fill : Entries → Document) : Prop where
  add : ∀ es key node, key ∉ es.keys →
    (fill es).addPair? [key] node = some (fill (es ++ [(key, node)]))

theorem Slot.top : Slot fun es => { entries := es } where
  add es key node h := by
    simp [Document.addPair?, Entries.within?, addPair?, Entries.addDotted?, Entries.add?,
      Entries.find?_of_not_mem h]

theorem Slot.table {before : Entries} {name : String} (hn : name ∉ before.keys) :
    Slot fun es => { entries := before ++ [(name, .table .header es)], header := [name] } where
  add es key node h := by
    simp [Document.addPair?, Entries.within?, addPair?, Entries.addDotted?, Entries.add?,
      Entries.find?_of_not_mem h, Entries.find?_concat hn, Entries.replace_concat hn]

theorem Document.open?_new {d : Document} {name : String} (hn : name ∉ d.entries.keys) :
    d.open? [name] Entries.openTable?
      = some { entries := d.entries ++ [(name, .table .header [])], header := [name] } := by
  simp [Document.open?, Entries.within?, Entries.openTable?, Entries.find?_of_not_mem hn]

/-! ## Statements -/

namespace Document

variable {d d' : Document}

/-- All statements of a text are read, and lead from one state to another. -/
def Reads (d : Document) (cs : List Char) (d' : Document) : Prop :=
  ∀ count, cs.length < count → d.statements? count cs = some d'

theorem Reads.nil (d : Document) : d.Reads [] d := by
  intro count hc
  obtain ⟨count, rfl⟩ := Nat.exists_eq_succ_of_ne_zero (Nat.ne_of_gt hc)
  rfl

/-- A statement is read and the rest after it. -/
theorem Reads.step {next : Document} (hf : skipBlanks cs = cs)
    (hs : d.statement? cs = some (next, rest)) (hl : rest.length < cs.length)
    (hr : next.Reads rest d') : d.Reads cs d' := by
  intro count hc
  obtain ⟨count, rfl⟩ := Nat.exists_eq_succ_of_ne_zero (Nat.ne_of_gt (Nat.zero_lt_of_lt hc))
  rw [statements?, hf]
  split
  · exact absurd hl (Nat.not_lt_zero _)
  · rw [hs]
    exact hr count (by omega)

/-- An empty line says nothing. -/
theorem Reads.blank (h : d.Reads rest d') : d.Reads ('\n' :: rest) d' :=
  .step rfl rfl (Nat.lt_succ_self _) h

theorem Reads.pair {next : Document} {key line : String} {node : Node} (hk : Bare key)
    (hw : writePair key node = .ok line) (hf : node.fits = true)
    (ha : d.addPair? [key] node = some next) (h : next.Reads rest d') :
    d.Reads (line.toList ++ rest) d' := by
  have htake := takePair?_writePair hk hw hf (nestingLimit - 1) rest
  obtain ⟨value, -, hline⟩ := writePair_eq hw
  obtain ⟨c, cs, hcs, hc⟩ := hk.exists_cons
  have hne (m : Char) (hm : isBare m = false) (t : List Char) : line.toList ++ rest ≠ m :: t := by
    simp [hline, hcs, ne_of_test hc hm]
  have hfront : skipBlanks (line.toList ++ rest) = line.toList ++ rest := by
    rw [hline, List.append_assoc]
    exact hk.skipBlanks
  refine .step hfront ?_ ?_ h
  · rw [statement?, htake]
    · simp only [ha, finishLine?_lineEnd]
    · exact fun _ => hne _ (by decide) _
    all_goals exact hne _ (by decide)
  · simp only [hline, List.length_append, List.length_cons]
    omega

theorem Reads.header {name : String} (hk : Bare name) (hn : name ∉ d.entries.keys)
    (h : Reads { entries := d.entries ++ [(name, .table .header [])], header := [name] } rest d') :
    d.Reads ('[' :: (name.toList ++ ']' :: '\n' :: rest)) d' := by
  have htake := takeKey?_header hk ('\n' :: rest)
  obtain ⟨c, cs, hcs, hc⟩ := hk.exists_cons
  have hne (t : List Char) : name.toList ++ ']' :: '\n' :: rest ≠ '[' :: t := by
    simp [hcs, ne_of_test hc (d := '[') (by decide)]
  refine .step rfl ?_ ?_ h
  · rw [statement?, htake]
    · simp only [open?_new hn, finishLine?_lineEnd]
    · exact hne
  · simp only [List.length_append, List.length_cons]
    omega

/-- No statement begins with a byte-order mark. -/
theorem Reads.ne_mark (h : d.Reads cs d') (t : List Char) : cs ≠ '\ufeff' :: t := by
  rintro rfl
  have hpart : takeKeyPart? ('\ufeff' :: t) = none := by
    have hmark : isBare '\ufeff' = false := by decide
    simp [takeKeyPart?, hmark]
  have hkey : takeKey? ('\ufeff' :: t) = none := by
    have hparts : nestingLimit - 1 = 78 + 1 := rfl
    have hfront : skipBlanks ('\ufeff' :: t) = '\ufeff' :: t := rfl
    rw [takeKey?, hparts, takeKeyParts?, hfront, hpart]
  have hread := h _ (Nat.lt_succ_self _)
  have hfront : skipBlanks ('\ufeff' :: t) = '\ufeff' :: t := rfl
  rw [statements?, hfront] at hread
  simp [statement?, takePair?, hkey] at hread

end Document

/-! ## What is written -/

/-- Of two things to write one after the other, both are written. -/
theorem both_eq_ok {ε α β γ : Type} {x : Except ε α} {y : Except ε β} {f : α → β → γ} {c : γ} :
    (x >>= fun a => y >>= fun b => pure (f a b)) = .ok c ↔
      ∃ a b, x = .ok a ∧ y = .ok b ∧ f a b = c := by
  cases x <;> cases y <;> simp [bind, Except.bind, pure, Except.pure]

theorem writePairs_cons {key lines : String} {node : Node} {es : Entries} :
    writePairs ((key, node) :: es) = .ok lines ↔
      ∃ line more, writePair key node = .ok line ∧ writePairs es = .ok more ∧ line ++ more = lines :=
  both_eq_ok

/-- Tables under their names, each with its own header. -/
def Entries.ofTables (tables : List (String × Entries)) : Entries :=
  tables.map fun t => (t.1, .table .header t.2)

/-- A value that is no table. -/
def Node.isFlat : Node → Bool
  | .table _ _ => false
  | _ => true

theorem writeEntries_flat {key text : String} {node : Node} {es : Entries} (hp : node.isFlat = true) :
    writeEntries ((key, node) :: es) = .ok text ↔
      ∃ line more, writePair key node = .ok line ∧ writeEntries es = .ok more ∧ line ++ more = text := by
  cases node with
  | table => cases hp
  | _ => exact both_eq_ok

theorem writeEntries_table {name text : String} {origin : Origin} {inner es : Entries} :
    writeEntries ((name, .table origin inner) :: es) = .ok text ↔
      ∃ lines more, writePairs inner = .ok lines ∧ writeEntries es = .ok more ∧
        s!"\n[{name}]\n" ++ lines ++ more = text :=
  both_eq_ok

theorem writeEntries_append {values es : Entries} {text : String}
    (hp : ∀ x ∈ values, x.2.isFlat = true) :
    writeEntries (values ++ es) = .ok text ↔
      ∃ lines more, writePairs values = .ok lines ∧ writeEntries es = .ok more ∧ lines ++ more = text := by
  induction values generalizing text with
  | nil => simp [writePairs]
  | cons x values ih =>
    obtain ⟨key, node⟩ := x
    obtain ⟨hx, hp⟩ := List.forall_mem_cons.mp hp
    rw [List.cons_append, writeEntries_flat hx]
    constructor
    · rintro ⟨line, text, hl, ht, rfl⟩
      obtain ⟨lines, more, hls, hm, rfl⟩ := (ih hp).mp ht
      exact ⟨line ++ lines, more, writePairs_cons.mpr ⟨line, lines, hl, hls, rfl⟩, hm,
        String.append_assoc⟩
    · rintro ⟨lines, more, hls, hm, rfl⟩
      obtain ⟨line, others, hl, ho, rfl⟩ := writePairs_cons.mp hls
      exact ⟨line, others ++ more, hl, (ih hp).mpr ⟨others, more, ho, hm, rfl⟩,
        String.append_assoc.symm⟩

/-- A value that stands on one line: an integer, or a text whose marks can be counted. -/
def Node.isWritable : Node → Bool
  | .text s => isCountable s
  | .integer _ => true
  | _ => false

@[simp] theorem Node.isWritable_integer (i : Int) : (Node.integer i).isWritable = true := rfl

@[simp] theorem Node.isWritable_text (s : String) : (Node.text s).isWritable = isCountable s := rfl

theorem writePair_isOk (key : String) {node : Node} :
    (∃ line, writePair key node = .ok line) ↔ node.isWritable = true := by
  cases node with
  | text s =>
    cases h : isCountable s <;>
      simp [writePair, writeValue, Node.isWritable, h, bind, Except.bind, pure, Except.pure]
  | integer => simp [writePair, writeValue, Node.isWritable, bind, Except.bind, pure, Except.pure]
  | _ => simp [writePair, writeValue, Node.isWritable, bind, Except.bind]

theorem writePairs_isOk {es : Entries} :
    (∃ lines, writePairs es = .ok lines) ↔ ∀ x ∈ es, x.2.isWritable = true := by
  induction es with
  | nil => simp [writePairs]
  | cons x es ih =>
    obtain ⟨key, node⟩ := x
    rw [List.forall_mem_cons, ← ih, ← writePair_isOk key]
    constructor
    · rintro ⟨lines, h⟩
      obtain ⟨line, more, hline, hmore, -⟩ := writePairs_cons.mp h
      exact ⟨⟨line, hline⟩, more, hmore⟩
    · rintro ⟨⟨line, hline⟩, more, hmore⟩
      exact ⟨_, writePairs_cons.mpr ⟨line, more, hline, hmore, rfl⟩⟩

theorem writeEntries_ofTables_isOk {tables : List (String × Entries)} :
    (∃ text, writeEntries (.ofTables tables) = .ok text) ↔
      ∀ t ∈ tables, ∀ x ∈ t.2, x.2.isWritable = true := by
  induction tables with
  | nil => simp [Entries.ofTables, writeEntries]
  | cons t tables ih =>
    obtain ⟨name, inner⟩ := t
    rw [List.forall_mem_cons, ← ih, ← writePairs_isOk]
    constructor
    · rintro ⟨text, h⟩
      obtain ⟨lines, more, hlines, hmore, -⟩ := writeEntries_table.mp h
      exact ⟨⟨lines, hlines⟩, more, hmore⟩
    · rintro ⟨⟨lines, hlines⟩, more, hmore⟩
      exact ⟨_, writeEntries_table.mpr ⟨lines, more, hlines, hmore, rfl⟩⟩

/-- A document of plain values and tables of them is written if its integers fit and the marks of its
texts can be counted. -/
theorem writeDocument_isOk {values : Entries} {tables : List (String × Entries)}
    (hp : ∀ x ∈ values, x.2.isFlat = true) :
    (∃ text, writeDocument (values ++ .ofTables tables) = .ok text) ↔
      (values ++ .ofTables tables).fit = true ∧ (∀ x ∈ values, x.2.isWritable = true) ∧
        ∀ t ∈ tables, ∀ x ∈ t.2, x.2.isWritable = true := by
  rw [← writePairs_isOk, ← writeEntries_ofTables_isOk]
  constructor
  · rintro ⟨text, h⟩
    unfold writeDocument at h
    split at h
    · rename_i hfit
      obtain ⟨lines, more, hlines, hmore, -⟩ := (writeEntries_append hp).mp h
      exact ⟨hfit, ⟨lines, hlines⟩, more, hmore⟩
    · cases h
  · rintro ⟨hfit, ⟨lines, hlines⟩, more, hmore⟩
    exact ⟨_, (if_pos hfit).trans ((writeEntries_append hp).mpr ⟨lines, more, hlines, hmore, rfl⟩)⟩

/-! ## Documents -/

/-- Entries under keys that need no marks, each of them once. -/
structure Entries.Keyed (es : Entries) : Prop where
  bare : ∀ key ∈ es.keys, Bare key
  nodup : es.keys.Nodup

/-- The lines of a table give its keys their values, in order. -/
theorem reads_pairs {fill : Entries → Document} {d' : Document} (hs : Slot fill) (before : Entries)
    {es : Entries} {lines : String} (hw : writePairs es = .ok lines) (hf : ∀ x ∈ es, x.2.fits = true)
    (hk : ∀ key ∈ es.keys, Bare key) (hd : (before ++ es).keys.Nodup)
    (h : (fill (before ++ es)).Reads rest d') : (fill before).Reads (lines.toList ++ rest) d' := by
  induction es generalizing before lines with
  | nil =>
    cases hw
    simpa using h
  | cons x es ih =>
    obtain ⟨key, node⟩ := x
    obtain ⟨line, more, hline, hmore, rfl⟩ := writePairs_cons.mp hw
    obtain ⟨hx, hf⟩ := List.forall_mem_cons.mp hf
    obtain ⟨hkey, hk⟩ := List.forall_mem_cons.mp hk
    have hnew : key ∉ before.keys := Entries.not_mem_of_nodup hd
    have hsplit : before ++ (key, node) :: es = before ++ [(key, node)] ++ es := by simp
    rw [hsplit] at hd h
    rw [String.toList_append, List.append_assoc]
    exact .pair hkey hline hx (hs.add before key node hnew) (ih _ hmore hf hk hd h)

/-- Each header opens its table, and the lines behind it fill it. -/
theorem reads_tables {tables : List (String × Entries)} {text : String}
    (hw : writeEntries (.ofTables tables) = .ok text)
    (hf : ∀ t ∈ tables, ∀ x ∈ t.2, x.2.fits = true) (ht : ∀ t ∈ tables, t.2.Keyed)
    (hb : ∀ t ∈ tables, Bare t.1) (d : Document)
    (hd : (d.entries ++ Entries.ofTables tables).keys.Nodup) :
    ∃ d', d.Reads text.toList d' ∧ d'.entries = d.entries ++ Entries.ofTables tables := by
  induction tables generalizing d text with
  | nil =>
    cases hw
    exact ⟨d, .nil d, by simp [Entries.ofTables]⟩
  | cons t tables ih =>
    obtain ⟨name, inner⟩ := t
    obtain ⟨lines, more, hlines, hmore, rfl⟩ := writeEntries_table.mp hw
    obtain ⟨hf, hfs⟩ := List.forall_mem_cons.mp hf
    obtain ⟨ht, hts⟩ := List.forall_mem_cons.mp ht
    obtain ⟨hb, hbs⟩ := List.forall_mem_cons.mp hb
    have hnew : name ∉ d.entries.keys := Entries.not_mem_of_nodup hd
    -- The document once the table of this header is full.
    obtain ⟨d', hreads, hentries⟩ := ih hmore hfs hts hbs
      { entries := d.entries ++ [(name, .table .header inner)], header := [name] }
      (by simpa [Entries.ofTables] using hd)
    refine ⟨d', ?_, by simpa [Entries.ofTables] using hentries⟩
    have hfill := reads_pairs (.table hnew) [] hlines hf ht.bare ht.nodup hreads
    have htext : (s!"\n[{name}]\n" ++ lines ++ more).toList
        = '\n' :: '[' :: (name.toList ++ ']' :: '\n' :: (lines.toList ++ more.toList)) := by
      simp [toString]
    rw [htext]
    exact .blank (.header hb hnew hfill)

theorem fits_of_mem {es : Entries} {x : String × Node} (h : es.fit = true) (hx : x ∈ es) :
    x.2.fits = true := by
  obtain ⟨key, node⟩ := x
  have hnode := List.all_eq_true.mp h _ hx
  cases node with
  | table => rfl
  | _ => exact hnode

theorem fits_of_mem_table {es inner : Entries} {name : String} {origin : Origin} (h : es.fit = true)
    (ht : (name, .table origin inner) ∈ es) : ∀ x ∈ inner, x.2.fits = true := fun x hx =>
  List.all_eq_true.mp (List.all_eq_true.mp h _ ht) x hx

/-- All statements of a text make up the document. -/
theorem Document.Reads.read?_eq {text : String} {d' : Document}
    (h : ({} : Document).Reads text.toList d') : read? text = some d'.entries := by
  unfold read?
  split
  · rename_i hmark
    exact absurd hmark (h.ne_mark _)
  · simp only [h _ (Nat.lt_succ_self _), Option.map_some]

/-- A document that was written is read back: plain values first, then tables of plain values. -/
theorem read?_writeDocument {values : Entries} {tables : List (String × Entries)} {text : String}
    (hp : ∀ x ∈ values, x.2.isFlat = true) (hk : (values ++ .ofTables tables).Keyed)
    (ht : ∀ t ∈ tables, t.2.Keyed) (hw : writeDocument (values ++ .ofTables tables) = .ok text) :
    read? text = some (values ++ .ofTables tables) := by
  unfold writeDocument at hw
  split at hw
  · rename_i hfit
    obtain ⟨lines, more, hlines, hmore, rfl⟩ := (writeEntries_append hp).mp hw
    have htable {t : String × Entries} (h : t ∈ tables) :
        (t.1, .table .header t.2) ∈ values ++ .ofTables tables :=
      List.mem_append_right _ (List.mem_map_of_mem h)
    obtain ⟨d', hreads, hentries⟩ := reads_tables hmore
      (fun t h => fits_of_mem_table hfit (htable h)) ht
      (fun t h => hk.bare _ (List.mem_map_of_mem (htable h))) { entries := values } hk.nodup
    have hvalues := reads_pairs .top [] hlines
      (fun x hx => fits_of_mem hfit (List.mem_append_left _ hx))
      (fun key hkey => hk.bare key (by simp [hkey]))
      (by simpa using (List.nodup_append.mp (Entries.keys_append _ _ ▸ hk.nodup)).1) hreads
    rw [← hentries]
    exact Document.Reads.read?_eq (by simpa using hvalues)
  · cases hw

end OtaUpgrade.Toml
