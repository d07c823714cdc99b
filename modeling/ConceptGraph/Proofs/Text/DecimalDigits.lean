/-
Rows of decimal digits and the numbers they stand for.

- `natOfDigits_toDigits`, `natOfDigits_padded`: a number is read back from its digits, also where zeros stand before them.
- `length_padded`: a number that fits takes as many digits as it is given.
- `StopsAt`: a text that does not go on with characters of a class; a row of digits before it is read as a whole
  (`takeWhile_append`, `dropWhile_append`).
-/
import Mathlib.Tactic
import ConceptGraph.Text.Blank
import ConceptGraph.Text.Digits

namespace ConceptGraph.Text

variable {ds rest : List Char} {n w : Nat} {c : Char} {p : Char → Bool}

/-! ## The end of a row -/

/-- the text does not go on with a character of the class -/
def StopsAt (p : Char → Bool) (cs : List Char) : Prop := ∀ c ∈ cs.head?, p c = false

theorem stopsAt_nil : StopsAt p [] := nofun

theorem stopsAt_cons (h : p c = false) : StopsAt p (c :: rest) := by
  rintro d ⟨⟩
  exact h

theorem takeWhile_append (hds : ∀ c ∈ ds, p c) (hrest : StopsAt p rest) : (ds ++ rest).takeWhile p = ds := by
  rw [List.takeWhile_append_of_pos hds]
  cases rest with
  | nil => simp
  | cons c rest => simp [hrest c rfl]

theorem dropWhile_of_stopsAt (hrest : StopsAt p rest) : rest.dropWhile p = rest := by
  cases rest with
  | nil => rfl
  | cons c rest => simp [hrest c rfl]

theorem dropWhile_append (hds : ∀ c ∈ ds, p c) (hrest : StopsAt p rest) : (ds ++ rest).dropWhile p = rest := by
  rw [List.dropWhile_append_of_pos hds, dropWhile_of_stopsAt hrest]

/-- the characters that digits with a point can go on with -/
def inDecimal (c : Char) : Bool := c.isDigit || c == '.'

theorem stopsAt_isDigit (h : StopsAt inDecimal rest) : StopsAt Char.isDigit rest := fun c hc => by
  have := h c hc
  simp_all [inDecimal]

/-! ## Digits of a number -/

theorem isDigit_toDigits : ∀ c ∈ Nat.toDigits 10 n, c.isDigit := fun _ =>
  Nat.isDigit_of_mem_toDigits (by decide) (by decide)

theorem natOfDigits_eq (ds : List Char) : natOfDigits ds = Nat.ofDigitChars 10 ds 0 := Nat.ofDigitChars_eq_foldl.symm

@[simp] theorem natOfDigits_toDigits (n : Nat) : natOfDigits (Nat.toDigits 10 n) = n := by
  rw [natOfDigits_eq, Nat.ofDigitChars_ten_toDigits]

theorem natOfDigits_append (ds es : List Char) : natOfDigits (ds ++ es) = 10 ^ es.length * natOfDigits ds + natOfDigits es := by
  rw [natOfDigits_eq, natOfDigits_eq, natOfDigits_eq, Nat.ofDigitChars_append, Nat.ofDigitChars_eq_ofDigitChars_zero]

theorem natOfDigits_zeros (n : Nat) : natOfDigits (List.replicate n '0') = 0 := by
  rw [natOfDigits_eq, Nat.ofDigitChars_replicate_zero, Nat.mul_zero]

/-- only zero is written with a zero in front -/
theorem head_toDigits (hn : n ≠ 0) : (Nat.toDigits 10 n).head? ≠ some '0' := by
  induction n using Nat.strongRecOn with
  | ind n ih =>
    rcases Nat.lt_or_ge n 10 with hlt | hge
    · rw [Nat.toDigits_of_lt_base hlt]
      interval_cases n <;> simp_all
    · rw [Nat.toDigits_of_base_le (by decide) hge, List.head?_append_of_ne_nil _ Nat.toDigits_ne_nil]
      exact ih (n / 10) (by omega) (by omega)

/-! ## A fixed number of digits -/

theorem isDigit_padded : ∀ c ∈ padded w n, c.isDigit := by
  intro c hc
  rcases List.mem_append.1 hc with hc | hc
  · rw [List.eq_of_mem_replicate hc]
    rfl
  · exact isDigit_toDigits c hc

@[simp] theorem natOfDigits_padded (w n : Nat) : natOfDigits (padded w n) = n := by
  rw [padded, natOfDigits_append, natOfDigits_zeros, natOfDigits_toDigits]
  omega

theorem padded_ne_nil : padded w n ≠ [] := by simp [padded, Nat.toDigits_ne_nil]

/-- a number that fits takes exactly the digits that it is given -/
theorem length_padded (hw : 0 < w) (hn : n < 10 ^ w) : (padded w n).length = w := by
  have hle : (Nat.toDigits 10 n).length ≤ w := (Nat.length_toDigits_le_iff (by decide) hw).2 hn
  simp only [padded, List.length_append, List.length_replicate]
  omega

/-- a digit is no blank -/
theorem not_blank_of_isDigit (h : c.isDigit) : isBlank c = false := by
  have hrange : 48 ≤ c.toNat ∧ c.toNat ≤ 57 := by
    simpa [Char.isDigit, UInt32.le_iff_toNat_le] using h
  simp only [isBlank, inRanges, blankRanges, List.any_cons, List.any_nil, Bool.or_false, Bool.or_eq_false_iff,
    Bool.and_eq_false_iff, decide_eq_false_iff_not]
  omega

end ConceptGraph.Text
