import Mathlib
import OtaUpgrade.Proofs.Toml.Texts
import OtaUpgrade.Toml.Reader
import OtaUpgrade.Toml.Writer

/-!
An integer that was written is read back as itself. A number at the front of a text could be the
start of a date, of a time or of a float; the writer ends the line right behind the digits, so none
of these goes through, and the digits stand for the integer alone.
-/
namespace OtaUpgrade.Toml

variable {c : Char} {ds rest : List Char}

/-! ## Digits -/

/-- Digits of a decimal number: at least one, and a zero in front stands alone. -/
structure Decimal (ds : List Char) : Prop where
  digits : ∀ c ∈ ds, isDigit c = true
  ne_nil : ds ≠ []
  lone : ds.head? = some '0' → ds = ['0']

theorem isDigit_of_isDigit (h : c.isDigit = true) : isDigit c = true := by
  simpa [isDigit, Char.isDigit, Char.le_def, UInt32.le_iff_toNat_le] using h

theorem hexValue?_of_isDigit (h : isDigit c = true) : hexValue? c = some (c.toNat - 48) := by
  simp only [isDigit, Bool.and_eq_true, decide_eq_true_eq] at h
  simp [hexValue?, h]

theorem head?_toDigits {n : Nat} (h : 0 < n) : (Nat.toDigits 10 n).head? ≠ some '0' := by
  induction n using Nat.strongRecOn with
  | ind n ih =>
    by_cases hn : n < 10
    · rw [Nat.toDigits_of_lt_base hn]
      interval_cases n <;> decide
    · rw [Nat.toDigits_of_base_le (by decide) (by omega), List.head?_append_of_ne_nil _ Nat.toDigits_ne_nil]
      exact ih (n / 10) (by omega) (by omega)

theorem Decimal.toDigits (n : Nat) : Decimal (Nat.toDigits 10 n) where
  digits c hc := isDigit_of_isDigit (Nat.isDigit_of_mem_toDigits (by decide) (by decide) hc)
  ne_nil := Nat.toDigits_ne_nil
  lone h := by
    rcases Nat.eq_zero_or_pos n with rfl | hn
    · exact Nat.toDigits_zero 10
    · exact absurd h (head?_toDigits hn)

theorem foldl_digits (before : Nat) (h : ∀ c ∈ ds, isDigit c = true) :
    ds.foldl (fun n c => 10 * n + (hexValue? c).getD 0) before = Nat.ofDigitChars 10 ds before := by
  induction ds generalizing before with
  | nil => exact Nat.ofDigitChars_nil.symm
  | cons c ds ih =>
    obtain ⟨hc, hds⟩ := List.forall_mem_cons.mp h
    rw [List.foldl_cons, ih _ hds, Nat.ofDigitChars_cons, hexValue?_of_isDigit hc]
    rfl

/-- The digits of a number stand for it. -/
theorem ofDigits_toDigits (n : Nat) : ofDigits 10 (Nat.toDigits 10 n) = n := by
  rw [ofDigits, foldl_digits 0 (Decimal.toDigits n).digits]
  exact Nat.ofDigitChars_toDigits (by decide) (by decide)

namespace Decimal

/-- The digits from their first on. -/
theorem exists_cons (h : Decimal ds) :
    ∃ c cs, ds = c :: cs ∧ isDigit c = true ∧ (c = '0' → cs = []) := by
  obtain ⟨c, cs, rfl⟩ := List.exists_cons_of_ne_nil h.ne_nil
  refine ⟨c, cs, rfl, h.digits c List.mem_cons_self, ?_⟩
  rintro rfl
  exact List.tail_eq_of_cons_eq (h.lone rfl)

end Decimal

/-! ## Moments -/

/-- Digits that are counted off leave digits up to the end of the line. -/
theorem takeCount?_append {count n : Nat} {left : List Char} (h : ∀ c ∈ ds, isDigit c = true)
    (ht : takeCount? count (ds ++ '\n' :: rest) = some (n, left)) :
    ∃ ds', (∀ c ∈ ds', isDigit c = true) ∧ left = ds' ++ '\n' :: rest := by
  simp only [takeCount?, Bool.and_eq_true, decide_eq_true_eq, List.all_eq_true,
    Option.ite_none_right_eq_some, Option.some.injEq, Prod.mk.injEq] at ht
  obtain ⟨⟨-, hall⟩, -, rfl⟩ := ht
  by_cases hlen : count ≤ ds.length
  · exact ⟨ds.drop count, fun c hc => h c (List.mem_of_mem_drop hc), List.drop_append_of_le_length hlen⟩
  · -- The line ends before that many digits.
    have hmem : '\n' ∈ (ds ++ '\n' :: rest).take count := by
      rw [List.take_append, List.take_cons (by omega)]
      simp
    exact absurd (hall _ hmem) (by decide)

theorem takeMark?_append (mark : Char) (rest : List Char) (h : ∀ c ∈ ds, isDigit c = true)
    (hd : isDigit mark = false) (hn : mark ≠ '\n') : takeMark? mark (ds ++ '\n' :: rest) = none := by
  cases ds with
  | nil => simp [takeMark?, hn.symm]
  | cons c ds => simp [takeMark?, ne_of_test (h c List.mem_cons_self) hd]

theorem takeDate?_append (h : ∀ c ∈ ds, isDigit c = true) : takeDate? (ds ++ '\n' :: rest) = none := by
  unfold takeDate?
  cases hy : takeCount? 4 (ds ++ '\n' :: rest) with
  | none => rfl
  | some taken =>
    obtain ⟨year, left⟩ := taken
    obtain ⟨ds', hds, rfl⟩ := takeCount?_append h hy
    have hmark := takeMark?_append '-' rest hds (by decide) (by decide)
    simp [hmark]

theorem takeTime?_append (h : ∀ c ∈ ds, isDigit c = true) : takeTime? (ds ++ '\n' :: rest) = none := by
  unfold takeTime?
  cases hh : takeWithin? 2 0 23 (ds ++ '\n' :: rest) with
  | none => rfl
  | some taken =>
    obtain ⟨hour, left⟩ := taken
    obtain ⟨n, hc⟩ : ∃ n, takeCount? 2 (ds ++ '\n' :: rest) = some (n, left) := by
      unfold takeWithin? at hh
      split at hh
      · split at hh <;> simp_all
      · cases hh
    obtain ⟨ds', hds, rfl⟩ := takeCount?_append h hc
    have hmark := takeMark?_append ':' rest hds (by decide) (by decide)
    simp [hmark]

/-- No date or time begins with a character that is no digit. -/
theorem readMoment?_cons {cs : List Char} (hc : isDigit c = false) : readMoment? (c :: cs) = none := by
  have hcount (count : Nat) : takeCount? (count + 1) (c :: cs) = none := by
    simp [takeCount?, hc]
  simp [readMoment?, takeDate?, takeTime?, takeWithin?, hcount]

theorem readMoment?_append (h : ∀ c ∈ ds, isDigit c = true) :
    readMoment? (ds ++ '\n' :: rest) = none := by
  simp [readMoment?, takeDate?_append h, takeTime?_append h]

/-! ## Integers -/

theorem takeDigits_append {digit : Char → Bool} (rest : List Char) (h : ∀ c ∈ ds, digit c = true)
    (hu : digit '_' = false) (hn : digit '\n' = false) :
    takeDigits digit (ds ++ '\n' :: rest) = (ds, '\n' :: rest) := by
  induction ds with
  | nil => simp [takeDigits, hn]
  | cons c ds ih =>
    obtain ⟨hc, hds⟩ := List.forall_mem_cons.mp h
    have hne : c ≠ '_' := by
      rintro rfl
      simp [hc] at hu
    rw [List.cons_append, takeDigits.eq_def]
    split <;> simp_all

/-- The digits of a number, behind a minus if it is below zero. -/
def signed (negative : Bool) (ds : List Char) : List Char :=
  if negative then '-' :: ds else ds

/-- The number that digits with a sign stand for. -/
def ofSigned (negative : Bool) (ds : List Char) : Int :=
  if negative then -(ofDigits 10 ds : Int) else ofDigits 10 ds

namespace Decimal

theorem takeDecimal? (h : Decimal ds) :
    takeDecimal? (ds ++ '\n' :: rest) = some (ds, '\n' :: rest) := by
  obtain ⟨c, cs, rfl, hc, hlone⟩ := h.exists_cons
  by_cases h0 : c = '0'
  · obtain rfl := hlone h0
    subst h0
    rfl
  · have htake := takeDigits_append rest h.digits (by decide) (by decide)
    simp_all [Toml.takeDecimal?, takeDigits?]

theorem takeSign (h : Decimal ds) (negative : Bool) :
    takeSign (signed negative ds ++ '\n' :: rest) = (negative, ds ++ '\n' :: rest) := by
  cases negative with
  | true => rfl
  | false =>
    obtain ⟨c, cs, rfl, hc, -⟩ := h.exists_cons
    have hminus := ne_of_test hc (d := '-') (by decide)
    have hplus := ne_of_test hc (d := '+') (by decide)
    simp [signed, Toml.takeSign, hminus, hplus]

theorem readMoment? (h : Decimal ds) (negative : Bool) :
    readMoment? (signed negative ds ++ '\n' :: rest) = none := by
  cases negative with
  | true => exact readMoment?_cons (by decide)
  | false => exact readMoment?_append h.digits

theorem readFloat? (h : Decimal ds) (negative : Bool) :
    readFloat? (signed negative ds ++ '\n' :: rest) = none := by
  have hspecial : readSpecial? (signed negative ds ++ '\n' :: rest) = none := by
    obtain ⟨c, cs, rfl, hc, -⟩ := h.exists_cons
    have hi := ne_of_test hc (d := 'i') (by decide)
    have hn := ne_of_test hc (d := 'n') (by decide)
    simp [readSpecial?, h.takeSign, hi, hn]
  simp [Toml.readFloat?, readDigitFloat?, h.takeSign, h.takeDecimal?, takeFraction?, takeExponent?,
    hspecial]

/-- A zero in front marks no other base, since the line ends behind it. -/
theorem ne_based (h : Decimal ds) (negative : Bool) (mark : Char) (rest : List Char)
    (hm : mark ≠ '\n') (t : List Char) : signed negative ds ++ '\n' :: rest ≠ '0' :: mark :: t := by
  cases negative with
  | true => simp [signed]
  | false =>
    obtain ⟨c, cs, rfl, hc, hlone⟩ := h.exists_cons
    intro heq
    obtain ⟨rfl, htail⟩ := List.cons_eq_cons.mp heq
    obtain rfl := hlone rfl
    exact hm (List.head_eq_of_cons_eq htail).symm

theorem readInteger? (h : Decimal ds) (negative : Bool) :
    readInteger? (signed negative ds ++ '\n' :: rest)
      = (fitting? (ofSigned negative ds)).map (·, '\n' :: rest) := by
  rw [Toml.readInteger?, h.takeSign]
  · simp only [h.takeDecimal?]
    rfl
  · exact h.ne_based negative 'x' rest (by decide)
  · exact h.ne_based negative 'o' rest (by decide)
  · exact h.ne_based negative 'b' rest (by decide)

theorem takeNumber? (h : Decimal ds) (negative : Bool) :
    takeNumber? (signed negative ds ++ '\n' :: rest)
      = (fitting? (ofSigned negative ds)).map fun i => (.integer i, '\n' :: rest) := by
  simp [Toml.takeNumber?, h.readMoment?, h.readFloat?, h.readInteger?, Option.map_map, Function.comp_def]

end Decimal

theorem toList_toString (i : Int) :
    (toString i).toList = signed (i < 0) (Nat.toDigits 10 i.natAbs) := by
  cases i with
  | ofNat n =>
    have hn : decide (Int.ofNat n < 0) = false := decide_eq_false (Int.natCast_nonneg n).not_gt
    have hs : toString (Int.ofNat n) = String.ofList (Nat.toDigits 10 n) := Nat.toString_eq_ofList_toDigits
    rw [hs, hn, String.toList_ofList]
    rfl
  | negSucc n =>
    have hs : toString (Int.negSucc n) = "-" ++ String.ofList (Nat.toDigits 10 (n + 1)) :=
      congrArg ("-" ++ ·) Nat.toString_eq_ofList_toDigits
    simp [hs, signed]

theorem ofSigned_toDigits (i : Int) : ofSigned (i < 0) (Nat.toDigits 10 i.natAbs) = i := by
  simp only [ofSigned, ofDigits_toDigits, decide_eq_true_eq]
  split <;> omega

/-- An integer that fits is read back, up to the end of its line. -/
theorem takeNumber?_toString {i : Int} (h : (fitting? i).isSome) (rest : List Char) :
    takeNumber? ((toString i).toList ++ '\n' :: rest) = some (.integer i, '\n' :: rest) := by
  have hfit : fitting? i = some i := by
    unfold fitting? at h ⊢
    split at h <;> simp_all
  rw [toList_toString, (Decimal.toDigits _).takeNumber?, ofSigned_toDigits, hfit]
  rfl

end OtaUpgrade.Toml
