import Mathlib
import OtaUpgrade.Toml.Text

/-!
A text that was written is read back as it was, in whichever of the four ways it was written. A
reader goes over the text mark by mark: for each character it takes what the writer put down for it
and nothing else. Only quotation marks and apostrophes between tripled marks need a look ahead, since
up to two of them may stand right before the marks that close; the writer never puts down a third.
-/
namespace OtaUpgrade.Toml

variable {c : Char} {cs rest : List Char}

/-! ## Escapes -/

theorem hexValue?_hexDigit : ∀ n < 16, hexValue? (hexDigit n) = some n := by
  decide

/-- Only the first 128 characters may need their code. -/
theorem lt_of_not_isPlain (h : isPlain c = false) : c.toNat < 0x80 := by
  simp only [isPlain, Bool.or_eq_false_iff, Bool.and_eq_false_iff, decide_eq_false_iff_not,
    bne_eq_false_iff_eq] at h
  omega

/-- Characters that a test tells apart differ. -/
theorem ne_of_test {test : Char → Bool} {d : Char} (hc : test c = true) (hd : test d = false) : c ≠ d := by
  rintro rfl
  simp [hc] at hd

theorem isUnescaped_of_isPlain (h : isPlain c = true) (hq : c ≠ '"') (hb : c ≠ '\\') :
    isUnescaped c = true := by
  simp [isUnescaped, h, hq, hb]

/-- Four digits carry the code of a character, as far as it goes with four. -/
theorem scalar?_code (h : c.toNat < 0x10000) :
    scalar? [hexDigit (c.toNat / 4096 % 16), hexDigit (c.toNat / 256 % 16),
      hexDigit (c.toNat / 16 % 16), hexDigit (c.toNat % 16)] = some c := by
  have hd (n : Nat) : hexValue? (hexDigit (n % 16)) = some (n % 16) :=
    hexValue?_hexDigit _ (Nat.mod_lt _ (by decide))
  have hcode : 16 * (16 * (16 * (16 * 0 + c.toNat / 4096 % 16) + c.toNat / 256 % 16)
      + c.toNat / 16 % 16) + c.toNat % 16 = c.toNat := by
    omega
  have hvalid : c.toNat.isValidChar := c.valid
  simp only [scalar?, List.foldl_cons, List.foldl_nil, Option.bind_some, hd, Option.map_some, hcode,
    hvalid, if_true, Char.ofNat_toNat]

/-- What may be put down for a character: the character itself, or an escape that stands for it. -/
inductive Escaped (broken : Bool) (c : Char) : List Char → Prop
  | letter {e : Char} (h : escaped? e = some c) : Escaped broken c ['\\', e]
  | lineEnd (h : c = '\n') (hb : broken = true) : Escaped broken c [c]
  | plain (h : isPlain c = true) (hb : c ≠ '\\') : Escaped broken c [c]
  | code (h : c.toNat < 0x80) : Escaped broken c (codeEscape c)

theorem escaped_escape (broken : Bool) (c : Char) : Escaped broken c (escape broken c) := by
  unfold escape
  split
  case h_3 =>
    split
    · exact .lineEnd rfl ‹_›
    · exact .letter rfl
  case h_7 hb =>
    split
    · exact .plain ‹_› hb
    · exact .code (lt_of_not_isPlain (Bool.eq_false_iff.mpr ‹_›))
  all_goals exact .letter rfl

/-- The letter of an escape is none of the characters that mean something else behind a backslash. -/
theorem ne_of_escaped {e d : Char} (h : escaped? e = some c) (hd : escaped? d = none) : e ≠ d := by
  rintro rfl
  simp [h] at hd

/-- What is put down for a character begins with that character or with a backslash. -/
theorem escape_ne_cons {broken : Bool} {d : Char} (hc : c ≠ d) (hd : d ≠ '\\') (t : List Char) :
    escape broken c ++ rest ≠ d :: t := by
  have h := escaped_escape broken c
  generalize escape broken c = written at h
  cases h with
  | letter => simp [hd.symm]
  | lineEnd | plain => simp [hc]
  | code => simp [codeEscape, hd.symm]

/-! ## Between quotation marks -/

theorem readBasic_mark : readBasic ('\\' :: '"' :: rest) = prepend (some '"') (readBasic rest) := by
  simp [readBasic, escaped?]

theorem readBasic_escape (hq : c ≠ '"') :
    readBasic (escape false c ++ rest) = prepend (some c) (readBasic rest) := by
  have h := escaped_escape false c
  generalize escape false c = written at h
  cases h with
  | @letter e h =>
    have hu := ne_of_escaped h (d := 'u') rfl
    have hU := ne_of_escaped h (d := 'U') rfl
    simp [readBasic, hu, hU, h]
  | lineEnd _ hb => cases hb
  | plain h hb => simp [readBasic, hb, isUnescaped_of_isPlain h hq hb]
  | code h =>
    simp only [codeEscape, List.cons_append, List.nil_append, readBasic]
    rw [scalar?_code (by omega)]

theorem readBasic_escapeAll (cs rest : List Char) :
    readBasic (escapeAll false 0 0 cs ++ '"' :: rest) = some (cs, rest) := by
  induction cs with
  | nil => simp [escapeAll, readBasic]
  | cons c cs ih =>
    by_cases hq : c = '"'
    · subst hq
      simp [escapeAll, readBasic_mark, ih, prepend]
    · simp [escapeAll, hq, readBasic_escape hq, ih, prepend]

/-! ## Between tripled quotation marks -/

theorem readLines_escape (hq : c ≠ '"') :
    readLines .none (escape true c ++ rest) = prepend (some c) (readLines .none rest) := by
  have h := escaped_escape true c
  generalize escape true c = written at h
  cases h with
  | @letter e h =>
    have hu := ne_of_escaped h (d := 'u') rfl
    have hU := ne_of_escaped h (d := 'U') rfl
    have hn := ne_of_escaped h (d := '\n') rfl
    have hr := ne_of_escaped h (d := '\r') rfl
    have hs := ne_of_escaped h (d := ' ') rfl
    have ht := ne_of_escaped h (d := '\t') rfl
    simp [readLines, hu, hU, hr, h, isBlank, hs, ht]
  | lineEnd h =>
    subst h
    simp [readLines]
  | plain h hb =>
    have hr : c ≠ '\r' := ne_of_test h (by decide)
    have hn : c ≠ '\n' := ne_of_test h (by decide)
    simp [readLines, hq, hb, hr, isUnescaped_of_isPlain h hq hb]
  | code h =>
    simp only [codeEscape, List.cons_append, List.nil_append, readLines]
    rw [scalar?_code (by omega)]

theorem readLines_escaped_mark :
    readLines .none ('\\' :: '"' :: rest) = prepend (some '"') (readLines .none rest) := by
  simp [readLines, escaped?, isBlank]

/-- A quotation mark is part of the text unless two more follow. -/
theorem readLines_mark (h : ∀ t, rest ≠ '"' :: '"' :: t) :
    readLines .none ('"' :: rest) = prepend (some '"') (readLines .none rest) := by
  simp [readLines, h]

/-- Two quotation marks follow only where the text goes out. -/
theorem escapeAll_ne_marks {before : Nat} (rest : List Char) (hn : cs ≠ []) (ho : before < 2 → cs ≠ ['"'])
    (hb : 1 ≤ before) (t : List Char) :
    escapeAll true 2 before cs ++ rest ≠ '"' :: '"' :: t := by
  cases cs with
  | nil => exact absurd rfl hn
  | cons c cs =>
    by_cases hq : c = '"'
    · subst hq
      by_cases hlt : before < 2
      · obtain rfl : before = 1 := by omega
        cases cs with
        | nil => exact absurd rfl (ho hlt)
        | cons d ds =>
          by_cases hd : d = '"'
          · subst hd
            simp [escapeAll]
          · simp only [escapeAll, if_true, hlt, hd, if_false, List.cons_append, ne_eq,
              List.cons.injEq, true_and, List.append_assoc]
            exact escape_ne_cons hd (by decide) t
      · simp [escapeAll, hlt]
    · simp only [escapeAll, hq, if_false, List.append_assoc]
      exact escape_ne_cons hq (by decide) _

theorem readLines_escapeAll (before : Nat) (cs rest : List Char) :
    readLines .none (escapeAll true 2 before cs ++ '"' :: '"' :: '"' :: '\n' :: rest)
      = some (cs, '\n' :: rest) := by
  induction cs generalizing before with
  | nil => simp [escapeAll, readLines]
  | cons c cs ih =>
    by_cases hq : c = '"'
    · subst hq
      by_cases hlt : before < 2
      · -- The marks that close stand behind up to two marks of the text.
        by_cases hn : cs = []
        · subst hn
          simp [escapeAll, hlt, readLines]
        · by_cases ho : before + 1 < 2 ∧ cs = ['"']
          · obtain ⟨hb, rfl⟩ := ho
            simp [escapeAll, hlt, hb, readLines]
          · have hmarks := escapeAll_ne_marks ('"' :: '"' :: '"' :: '\n' :: rest) hn
              (fun hb hc => ho ⟨hb, hc⟩) (Nat.le_add_left 1 before)
            simp only [escapeAll, if_true, hlt, List.cons_append]
            rw [readLines_mark hmarks, ih]
            rfl
      · simp only [escapeAll, if_true, hlt, if_false, List.cons_append]
        rw [readLines_escaped_mark, ih]
        rfl
    · simp only [escapeAll, hq, if_false, List.append_assoc]
      rw [readLines_escape hq, ih]
      rfl

/-! ## Stretches -/

theorem le_longestRun (mark : Char) (before : Nat) (cs : List Char) :
    before ≤ longestRun mark before cs := by
  induction cs generalizing before with
  | nil => exact Nat.le_refl _
  | cons c cs ih =>
    unfold longestRun
    split
    · exact Nat.le_trans (Nat.le_succ _) (ih (before + 1))
    · exact Nat.le_max_left ..

/-- The rest of a text has no longer stretches than the whole of it. -/
theorem longestRun_tail {mark : Char} {before bound : Nat}
    (h : longestRun mark before (c :: cs) ≤ bound) :
    longestRun mark (if c = mark then before + 1 else 0) cs ≤ bound := by
  unfold longestRun at h
  split at h
  · simp [*]
  · simpa [*] using Nat.le_trans (Nat.le_max_right ..) h

theorem not_mem_of_longestRun {mark : Char} (h : longestRun mark 0 cs ≤ 0) : mark ∉ cs := by
  induction cs with
  | nil => exact List.not_mem_nil
  | cons c cs ih =>
    have htail := longestRun_tail h
    split at htail
    · have hone := Nat.le_trans (le_longestRun mark 1 cs) htail
      contradiction
    · rename_i hc
      exact List.not_mem_cons_of_ne_of_not_mem (Ne.symm hc) (ih htail)

/-! ## Between apostrophes -/

theorem readLiteral_append (h : ∀ c ∈ cs, isPlain c = true) (hm : '\'' ∉ cs) (rest : List Char) :
    readLiteral (cs ++ '\'' :: rest) = some (cs, rest) := by
  induction cs with
  | nil => simp [readLiteral]
  | cons c cs ih =>
    obtain ⟨hc, hcs⟩ := List.forall_mem_cons.mp h
    obtain ⟨hne, hm⟩ := not_or.mp (mt List.mem_cons.mpr hm)
    rw [List.cons_append, readLiteral.eq_def]
    split <;> simp_all [prepend]

/-! ## Between tripled apostrophes -/

/-- An apostrophe is part of the text unless two more follow. -/
theorem readLiteralLines_mark (h : ∀ t, rest ≠ '\'' :: '\'' :: t) :
    readLiteralLines ('\'' :: rest) = prepend (some '\'') (readLiteralLines rest) := by
  have hp : isPlain '\'' = true := by decide
  simp [readLiteralLines, h, hp]

theorem readLiteralLines_cons (hc : needsCode c = false) (hm : c ≠ '\'') :
    readLiteralLines (c :: rest) = prepend (some c) (readLiteralLines rest) := by
  have hplain : c ≠ '\n' → isPlain c = true := by
    simpa [needsCode] using hc
  have hr : c ≠ '\r' := by
    rintro rfl
    exact absurd (hplain (by decide)) (by decide)
  by_cases hn : c = '\n'
  · simp [hn, readLiteralLines]
  · rw [readLiteralLines.eq_def]
    split <;> simp_all

theorem readLiteralLines_append {before : Nat} (h : ∀ c ∈ cs, needsCode c = false)
    (hm : longestRun '\'' before cs ≤ 2) (rest : List Char) :
    readLiteralLines (cs ++ '\'' :: '\'' :: '\'' :: '\n' :: rest) = some (cs, '\n' :: rest) := by
  induction cs generalizing before with
  | nil => simp [readLiteralLines]
  | cons c cs ih =>
    obtain ⟨hc, hcs⟩ := List.forall_mem_cons.mp h
    have htail := longestRun_tail hm
    have ih := ih hcs htail
    by_cases hq : c = '\''
    · subst hq
      rw [if_pos rfl] at htail
      -- The apostrophes that close stand behind up to two of the text.
      cases cs with
      | nil => simp [readLiteralLines]
      | cons d ds =>
        by_cases hd : d = '\''
        · subst hd
          have htail := longestRun_tail htail
          cases ds with
          | nil => simp [readLiteralLines]
          | cons e es =>
            have he : e ≠ '\'' := by
              rintro rfl
              have hthree := Nat.le_trans (le_longestRun ..) (longestRun_tail htail)
              simp only [if_true] at hthree
              omega
            rw [List.cons_append, readLiteralLines_mark (by simp [he]), ih]
            rfl
        · rw [List.cons_append, readLiteralLines_mark (by simp [hd]), ih]
          rfl
    · rw [List.cons_append, readLiteralLines_cons hc hq, ih]
      rfl

/-! ## Texts -/

/-- A text that stands between apostrophes on one line has neither an apostrophe nor anything that
only an escape can show. -/
theorem Style.literal_spec (h : Style.of cs = literal) : (∀ c ∈ cs, isPlain c = true) ∧ '\'' ∉ cs := by
  simp only [Style.of] at h
  split_ifs at h with _ hl
  simp only [Bool.and_eq_true, Bool.not_eq_true', List.any_eq_false, beq_iff_eq,
    List.contains_eq_mem, decide_eq_false_iff_not] at hl
  obtain ⟨⟨hcode, hrun⟩, hline⟩ := hl
  refine ⟨fun c hc => ?_, not_mem_of_longestRun hrun.le⟩
  have hn : c ≠ '\n' := fun h => hline (h ▸ hc)
  simpa [needsCode, hn] using hcode c hc

theorem Style.literalLines_spec (h : Style.of cs = literalLines) :
    (∀ c ∈ cs, needsCode c = false) ∧ longestRun '\'' 0 cs ≤ 2 := by
  simp only [Style.of] at h
  split_ifs at h with _ _ _ hl
  simp only [Bool.and_eq_true, Bool.not_eq_true', List.any_eq_false, decide_eq_true_eq,
    Bool.not_eq_true] at hl
  exact hl

/-- Behind opening marks a text starts on a line of its own if it has line ends at all, and is then
told from what belongs to the marks. -/
theorem dropLineEnd_start (cs opened : List Char) (hn : '\n' ∉ cs → ∀ t, opened ≠ '\n' :: t)
    (hr : ∀ t, opened ≠ '\r' :: t) :
    dropLineEnd ((if cs.contains '\n' then ['\n'] else []) ++ opened) = opened := by
  by_cases h : '\n' ∈ cs
  · simp [h, dropLineEnd]
  · have hn := hn h
    simp only [List.contains_eq_mem, h, decide_false, Bool.false_eq_true, if_false, List.nil_append]
    rw [dropLineEnd.eq_def]
    split <;> simp_all

theorem escape_ne_return {broken : Bool} (t : List Char) : escape broken c ++ rest ≠ '\r' :: t := by
  by_cases hc : c = '\r'
  · simp [hc, escape]
  · exact escape_ne_cons hc (by decide) t

/-- What is put down for a text begins as what is put down for one of its characters, or with a mark
or a backslash. -/
theorem escapeAll_ne_cons {broken : Bool} {allowed before : Nat} {d : Char}
    (h : ∀ c ∈ cs, ∀ rest t, escape broken c ++ rest ≠ d :: t) (hm : d ≠ '"') (hb : d ≠ '\\')
    (t : List Char) : escapeAll broken allowed before cs ++ '"' :: rest ≠ d :: t := by
  cases cs with
  | nil => simp [escapeAll, hm.symm]
  | cons c cs =>
    unfold escapeAll
    split
    · split <;> simp [hm.symm, hb.symm]
    · rw [List.append_assoc]
      exact h c List.mem_cons_self _ t

/-- The marks of a text on one line are not mistaken for tripled ones. -/
theorem escapeAll_ne_tripled (t : List Char) :
    escapeAll false 0 0 cs ++ '"' :: '\n' :: rest ≠ '"' :: '"' :: t := by
  cases cs with
  | nil => simp [escapeAll]
  | cons c cs =>
    by_cases hq : c = '"'
    · simp [escapeAll, hq]
    · simp only [escapeAll, hq, if_false, List.append_assoc]
      exact escape_ne_cons hq (by decide) _

theorem append_ne_cons {d : Char} (h : d ∉ cs) {closing : List Char} (hc : closing.head? ≠ some d)
    (t : List Char) : cs ++ closing ≠ d :: t := by
  cases cs with
  | nil =>
    rintro rfl
    exact hc rfl
  | cons c cs =>
    intro heq
    exact h (List.head_eq_of_cons_eq heq ▸ List.mem_cons_self)

/-- A text that was written is read back, up to the end of its line. -/
theorem readText?_write (s : String) (rest : List Char) :
    readText? ((write s).toList ++ '\n' :: rest) = some (s, '\n' :: rest) := by
  unfold write
  rw [String.toList_ofList]
  cases h : Style.of s.toList with
  | basic =>
    have hread := readBasic_escapeAll s.toList ('\n' :: rest)
    simp [readText?, escapeAll_ne_tripled, hread]
  | literal =>
    obtain ⟨hplain, hm⟩ := Style.literal_spec h
    have hread := readLiteral_append hplain hm ('\n' :: rest)
    have hne (t : List Char) : s.toList ++ '\'' :: '\n' :: rest ≠ '\'' :: '\'' :: t := by
      intro heq
      rcases List.append_eq_cons_iff.mp heq with ⟨-, h⟩ | ⟨cs, h, -⟩
      · simp at h
      · exact hm (h ▸ List.mem_cons_self)
    simp [readText?, hread]
  | lines =>
    have hread := readLines_escapeAll 0 s.toList rest
    have hdrop := dropLineEnd_start s.toList
      (escapeAll true 2 0 s.toList ++ '"' :: '"' :: '"' :: '\n' :: rest)
      (fun hn => escapeAll_ne_cons (fun c hc _ => escape_ne_cons (fun h => hn (h ▸ hc)) (by decide))
        (by decide) (by decide))
      (escapeAll_ne_cons (fun c _ _ => escape_ne_return) (by decide) (by decide))
    simp only [List.append_assoc, List.cons_append, List.nil_append, readText?, hdrop, hread,
      Option.map_some, String.ofList_toList]
  | literalLines =>
    obtain ⟨hcode, hrun⟩ := Style.literalLines_spec h
    have hread := readLiteralLines_append hcode hrun rest
    have hdrop := dropLineEnd_start s.toList (s.toList ++ '\'' :: '\'' :: '\'' :: '\n' :: rest)
      (fun hn => append_ne_cons hn (by simp))
      (append_ne_cons (fun hr => absurd (hcode _ hr) (by decide)) (by simp))
    simp only [List.append_assoc, List.cons_append, List.nil_append, readText?, hdrop, hread,
      Option.map_some, String.ofList_toList]

end OtaUpgrade.Toml
