/-
Numbers in data texts can be read again.

- `scaleUp?_isSome`: scaling up does not get past every number, if the exact product is not past the interval of the last
  number but one. That rounding three times cannot spoil this is checked for each power of ten (`all_stayBelow`).
- `ofDecimal_spells`: how a decimal is written, in any layout: with its own digits, or as a small number.
- `toInt?_ofInt`: whole numbers are read back.
- `Double.numeral?_stands`, `Single.numeral?_stands`: a finite number has a numeral, which can be read; others have none.
-/
import Mathlib.Tactic
import ConceptGraph.Json.Number
import ConceptGraph.Proofs.Text.ShortestDigits
import ConceptGraph.Proofs.Text.JsonText

namespace ConceptGraph

open Text FloatFormat

namespace Numeral

variable {n : Numeral} {d : Decimal} {ds : List Char} {sig c e : ℕ}

/-! ## Powers of ten -/

/-- the end of the interval of the last number but one -/
def lastEnd : ℕ := (2 ^ 54 - 3) * 2 ^ 970

/-- the largest significand of eighteen digits whose multiple of `10 ^ e` is not past `lastEnd` -/
def largest (e : ℕ) : ℕ := min (10 ^ 18) (lastEnd / 10 ^ e)

/-- whether the largest significand, as it is rounded, stays below the overflow bound -/
def staysBelow (e : ℕ) : Bool :=
  let (m, q) := FloatFormat.double.magnitude (FloatFormat.double.powerOfTen e)
  let product := (largest e + largest e / 2 ^ 53) * m
  if q < 0 then product < (2 ^ 54 - 1) * 2 ^ 970 * 2 ^ q.natAbs else product * 2 ^ q.natAbs < (2 ^ 54 - 1) * 2 ^ 970

set_option maxRecDepth 10000 in
/-- every power of ten that is scaled by, one by one: rounding moves each of them its own way -/
theorem all_stayBelow : ∀ e < 309, staysBelow e = true := by decide +kernel

theorem largest_past : largest 309 = 0 := by decide +kernel

theorem largest_antitone {e' : ℕ} (h : e ≤ e') : largest e' ≤ largest e :=
  min_le_min le_rfl (Nat.div_le_div_left (Nat.pow_le_pow_right (by decide) h) (by positivity))

theorem largest_mul_lt (he : e < 309) :
    ((largest e + largest e / 2 ^ 53 : ℕ) : ℚ) * value (FloatFormat.double.powerOfTen e) < overflow := by
  have h := all_stayBelow e he
  unfold staysBelow at h
  rw [value]
  generalize FloatFormat.double.magnitude (FloatFormat.double.powerOfTen e) = p at *
  obtain ⟨m, q⟩ := p
  dsimp only at h ⊢
  rw [zpow_natAbs, ← mul_assoc]
  have hover : overflow = (((2 ^ 54 - 1) * 2 ^ 970 : ℕ) : ℚ) := by
    rw [overflow, Nat.cast_mul, Nat.cast_pow]
    norm_num only
  rw [hover]
  generalize (2 ^ 54 - 1) * 2 ^ 970 = bound at *
  generalize largest e + largest e / 2 ^ 53 = c at *
  split_ifs at h ⊢ with hq
  · rw [← div_eq_mul_inv, div_lt_iff₀ (by positivity)]
    exact_mod_cast of_decide_eq_true h
  · exact_mod_cast of_decide_eq_true h

/-- a product below the bound is scaled up to -/
theorem scaleUp?_of_lt (hc : c < 2 ^ 64) (he : e < 309)
    (h : ((c + c / 2 ^ 53 : ℕ) : ℚ) * value (FloatFormat.double.powerOfTen e) < overflow) :
    (scaleUp? (FloatFormat.double.nearest false c 1) e).isSome := by
  have hproduct := times_lt ((mul_le_mul_of_nonneg_right (value_nearest_le hc) (value_nonneg _)).trans_lt h)
  rw [scaleUp?, if_pos (by unfold scaleStep; omega)]
  dsimp only
  rw [if_neg hproduct.ne]
  rfl

/-- **Scaling up** does not get past every number, if the product is not past `lastEnd`. -/
theorem scaleUp?_isSome (hc : c ≤ 10 ^ 18) (hpos : 0 < c) (h : c * 10 ^ e ≤ lastEnd) :
    (scaleUp? (FloatFormat.double.nearest false c 1) e).isSome := by
  have hle : c ≤ largest e := le_min hc ((Nat.le_div_iff_mul_le (by positivity)).2 h)
  have he : e < 309 := by
    by_contra hge
    have := largest_antitone (le_of_not_gt hge)
    rw [largest_past] at this
    omega
  have hsum : c + c / 2 ^ 53 ≤ largest e + largest e / 2 ^ 53 := Nat.add_le_add hle (Nat.div_le_div_right hle)
  have hcast : ((c + c / 2 ^ 53 : ℕ) : ℚ) ≤ (largest e + largest e / 2 ^ 53 : ℕ) := by exact_mod_cast hsum
  exact scaleUp?_of_lt (by omega) he ((mul_le_mul_of_nonneg_right hcast (value_nonneg _)).trans_lt (largest_mul_lt he))

/-! ## Significands -/

/-- the power of ten that is written out -/
def power (n : Numeral) : ℤ :=
  match n.exponent with
  | none => 0
  | some (negative, ds) => if negative then -(natOfDigits ds) else natOfDigits ds

theorem le_ofDigitChars (sig : ℕ) (ds : List Char) : sig ≤ Nat.ofDigitChars 10 ds sig := by
  induction ds generalizing sig with
  | nil => exact le_rfl
  | cons d ds ih =>
    rw [Nat.ofDigitChars_cons]
    exact le_trans (by omega) (ih _)

/-- digits that fit are all taken -/
theorem takeDigits_eq (h : Nat.ofDigitChars 10 ds sig < UInt64.size) : takeDigits sig ds = (Nat.ofDigitChars 10 ds sig, []) := by
  induction ds generalizing sig with
  | nil => rfl
  | cons d ds ih =>
    rw [Nat.ofDigitChars_cons] at h ⊢
    rw [takeDigits, if_pos ((le_ofDigitChars _ ds).trans_lt h), ih h]

/-- **The significand** is made of all the digits, if they fit. -/
theorem scaled_eq (h : natOfDigits (n.whole ++ n.fraction) < UInt64.size) :
    n.scaled = (natOfDigits (n.whole ++ n.fraction), n.power - n.fraction.length) := by
  rw [natOfDigits_eq, Nat.ofDigitChars_append] at h ⊢
  rw [scaled, takeDigits_eq ((le_ofDigitChars _ n.fraction).trans_lt h)]
  dsimp only
  rw [takeDigits_eq h]
  cases hexponent : n.exponent <;> simp [power, hexponent]

/-- **A number is read** if its significand fits, and it is scaled down or not scaled up too far. -/
theorem toDouble?_isSome (h : natOfDigits (n.whole ++ n.fraction) < UInt64.size)
    (hscale : n.power - n.fraction.length < 0 ∨ (scaleUp? (FloatFormat.double.nearest false
      (natOfDigits (n.whole ++ n.fraction)) 1) (n.power - n.fraction.length).natAbs).isSome) : n.toDouble?.isSome := by
  rw [toDouble?, scaled_eq h]
  dsimp only
  rw [Option.isSome_map]
  split_ifs with hneg
  · rfl
  · exact hscale.resolve_left hneg

/-! ## Whole numbers -/

theorem value_powerOfTen_zero : value (FloatFormat.double.powerOfTen 0) = 1 := by
  have hmagnitude : FloatFormat.double.magnitude (FloatFormat.double.powerOfTen 0) = (2 ^ 52, -52) := by decide +kernel
  rw [value, hmagnitude]
  norm_num

/-- a whole number of 64 bits can be read as floating point -/
theorem toDouble?_of_whole (negative : Bool) {k : ℕ} (hk : k < 2 ^ 64) :
    (⟨negative, Nat.toDigits 10 k, [], none⟩ : Numeral).toDouble?.isSome := by
  have hsize : UInt64.size = 2 ^ 64 := rfl
  have hdigits : natOfDigits (Nat.toDigits 10 k ++ []) = k := by rw [List.append_nil, natOfDigits_toDigits]
  refine toDouble?_isSome (by dsimp only; omega) (Or.inr ?_)
  show (scaleUp? (FloatFormat.double.nearest false (natOfDigits (Nat.toDigits 10 k ++ [])) 1) 0).isSome
  rw [hdigits]
  refine scaleUp?_of_lt hk (by decide) (lt_overflow ?_)
  have hle : k + k / 2 ^ 53 ≤ 2 ^ 65 := by omega
  rw [value_powerOfTen_zero, mul_one]
  exact le_trans (by exact_mod_cast hle) (pow_le_pow_right₀ one_le_two (by decide : 65 ≤ 970))

theorem toInt?_ofNat (k : ℕ) : (ofNat k).toInt? = some (k : ℤ) := by simp [toInt?, ofNat, isWhole]

/-- **A whole number** is read back, and zero has no sign -/
theorem toInt?_ofInt (i : ℤ) : (ofInt i).toInt? = some i := by
  rcases lt_or_ge i 0 with hneg | hpos
  · have hne : i ≠ 0 := hneg.ne
    simp [toInt?, ofInt, isWhole, hneg, hne, abs_of_neg hneg]
  · simp [toInt?, ofInt, isWhole, not_lt.2 hpos, abs_of_nonneg hpos]

/-! ## Numerals of decimals -/

/-- how a decimal is written: with a point or an exponent; and either with its own digits and power of ten, or with more
zeros but few digits, as a number that is scaled down -/
structure Spells (n : Numeral) (d : Decimal) : Prop where
  wellWritten : n.WellWritten
  notWhole : n.isWhole = false
  scaled : natOfDigits (n.whole ++ n.fraction) = d.digits ∧ n.power - n.fraction.length = d.exponent ∨
    natOfDigits (n.whole ++ n.fraction) < 10 ^ 17 ∧ n.power - n.fraction.length < 0

/-- some digits of a positive number, from the first one on -/
theorem leading_take {k n : ℕ} (hn : n ≠ 0) (hk : 0 < k) :
    (Nat.toDigits 10 n).take k ≠ [] ∧ ((Nat.toDigits 10 n).take k).head? ≠ some '0' := by
  rw [List.head?_take, if_neg hk.ne']
  exact ⟨by simp [hk.ne', Nat.toDigits_ne_nil], head_toDigits hn⟩

theorem isDigit_take {k n : ℕ} : ∀ c ∈ (Nat.toDigits 10 n).take k, c.isDigit := fun c hc =>
  isDigit_toDigits c (List.mem_of_mem_take hc)

theorem isDigit_drop {k n : ℕ} : ∀ c ∈ (Nat.toDigits 10 n).drop k, c.isDigit := fun c hc =>
  isDigit_toDigits c (List.mem_of_mem_drop hc)

theorem isDigit_zeros {k : ℕ} : ∀ c ∈ List.replicate k '0', c.isDigit := fun c hc => by
  rw [List.eq_of_mem_replicate hc]
  rfl

/-- with zeros behind the digits, and one behind the point -/
theorem spells_zerosBehind (negative : Bool) (hd : d.digits ≠ 0 ∨ d = ⟨0, 0⟩) (hfew : d.exponent.natAbs + d.width ≤ 16) :
    Spells ⟨negative, Nat.toDigits 10 d.digits ++ List.replicate d.exponent.natAbs '0', ['0'], none⟩ d := by
  refine ⟨⟨List.forall_mem_append.2 ⟨isDigit_toDigits, isDigit_zeros⟩, ?_, by simp, nofun⟩, rfl,
    Or.inr ⟨?_, by simp [power]⟩⟩
  · rcases hd with hn | rfl
    · refine Or.inr ⟨by simp [Nat.toDigits_ne_nil], ?_⟩
      rw [List.head?_append_of_ne_nil _ Nat.toDigits_ne_nil]
      exact head_toDigits hn
    · exact Or.inl rfl
  · have hwidth : d.digits < 10 ^ d.width :=
      (Nat.length_toDigits_le_iff (by decide) (List.length_pos_iff.2 Nat.toDigits_ne_nil)).1 le_rfl
    have hlt : 10 ^ d.exponent.natAbs * d.digits < 10 ^ 16 :=
      calc 10 ^ d.exponent.natAbs * d.digits < 10 ^ d.exponent.natAbs * 10 ^ d.width := by gcongr
        _ = 10 ^ (d.exponent.natAbs + d.width) := (pow_add _ _ _).symm
        _ ≤ 10 ^ 16 := Nat.pow_le_pow_right (by decide) hfew
    have hzero : natOfDigits ['0'] = 0 := rfl
    simp only [natOfDigits_append, natOfDigits_zeros, natOfDigits_toDigits, List.length_replicate, List.length_singleton, hzero]
    omega

/-- with the point among the digits -/
theorem spells_pointAmong (negative : Bool) (hn : d.digits ≠ 0) (hexp : d.exponent < 0)
    (hplaces : d.exponent.natAbs < (Nat.toDigits 10 d.digits).length) :
    Spells ⟨negative, (Nat.toDigits 10 d.digits).take ((Nat.toDigits 10 d.digits).length - d.exponent.natAbs),
      (Nat.toDigits 10 d.digits).drop ((Nat.toDigits 10 d.digits).length - d.exponent.natAbs), none⟩ d := by
  set width := (Nat.toDigits 10 d.digits).length with hwidth
  have hfraction : ((Nat.toDigits 10 d.digits).drop (width - d.exponent.natAbs)).length = d.exponent.natAbs := by
    rw [List.length_drop]
    omega
  refine ⟨⟨isDigit_take, Or.inr (leading_take hn (by omega)), isDigit_drop, nofun⟩, ?_, Or.inl ⟨?_, ?_⟩⟩
  · have hne : (Nat.toDigits 10 d.digits).drop (width - d.exponent.natAbs) ≠ [] :=
      List.length_pos_iff.1 (by omega)
    simp [isWhole, hne]
  · rw [List.take_append_drop, natOfDigits_toDigits]
  · simp only [power, hfraction]
    omega

/-- with the point before the digits -/
theorem spells_pointBefore (negative : Bool) (hexp : d.exponent < 0)
    (hplaces : (Nat.toDigits 10 d.digits).length ≤ d.exponent.natAbs) :
    Spells ⟨negative, ['0'], List.replicate (d.exponent.natAbs - (Nat.toDigits 10 d.digits).length) '0' ++
      Nat.toDigits 10 d.digits, none⟩ d := by
  have hlength : (List.replicate (d.exponent.natAbs - (Nat.toDigits 10 d.digits).length) '0' ++
      Nat.toDigits 10 d.digits).length = d.exponent.natAbs := by
    rw [List.length_append, List.length_replicate]
    omega
  refine ⟨⟨by simp, Or.inl rfl, List.forall_mem_append.2 ⟨isDigit_zeros, isDigit_toDigits⟩, nofun⟩, ?_, Or.inl ⟨?_, ?_⟩⟩
  · simp [isWhole, Nat.toDigits_ne_nil]
  · have hzero : natOfDigits ['0'] = 0 := rfl
    rw [natOfDigits_append, natOfDigits_append, natOfDigits_zeros, natOfDigits_toDigits, hzero, mul_zero, mul_zero, zero_add,
      zero_add]
  · simp only [power, hlength]
    omega

/-- with the point behind the first digit, and an exponent -/
theorem spells_exponent (negative : Bool) (hd : d.digits ≠ 0 ∨ d = ⟨0, 0⟩) :
    Spells ⟨negative, (Nat.toDigits 10 d.digits).take 1, (Nat.toDigits 10 d.digits).drop 1,
      some (d.leadExponent < 0, Nat.toDigits 10 d.leadExponent.natAbs)⟩ d := by
  refine ⟨⟨isDigit_take, ?_, isDigit_drop, ?_⟩, by simp [isWhole], Or.inl ⟨?_, ?_⟩⟩
  · rcases hd with hn | rfl
    · exact Or.inr (leading_take hn one_pos)
    · exact Or.inl rfl
  · rintro e ⟨⟩
    exact ⟨Nat.toDigits_ne_nil, isDigit_toDigits⟩
  · rw [List.take_append_drop, natOfDigits_toDigits]
  · have hwidth : 0 < (Nat.toDigits 10 d.digits).length := List.length_pos_iff.2 Nat.toDigits_ne_nil
    have hpower : (if d.leadExponent < 0 then -(d.leadExponent.natAbs : ℤ) else d.leadExponent.natAbs) = d.leadExponent := by
      split_ifs <;> omega
    simp only [power, natOfDigits_toDigits, decide_eq_true_eq, hpower, List.length_drop]
    rw [Decimal.leadExponent, Decimal.width]
    omega

/-- **Every decimal** is written so, in any layout that does not write out more than sixteen digits. -/
theorem ofDecimal_spells (layout : Layout) (negative : Bool) (hlimit : layout.limit ≤ 16)
    (hd : d.digits ≠ 0 ∨ d = ⟨0, 0⟩) : (ofDecimal layout negative d).Spells d := by
  unfold ofDecimal
  dsimp only
  split_ifs with hlayout hexp hplaces
  · refine spells_zerosBehind negative hd ?_
    have := hlayout.2
    unfold Decimal.leadExponent at this
    omega
  · -- zero has no places behind the point
    exact spells_pointAmong negative (hd.resolve_right fun h => by simp [h] at hexp) (not_le.1 hexp) hplaces
  · exact spells_pointBefore negative (not_le.1 hexp) (not_lt.1 hplaces)
  · exact spells_exponent negative hd

/-- what is written with a point is no whole number -/
theorem Spells.toInt? (h : n.Spells d) : n.toInt? = none := by simp [Numeral.toInt?, h.notWhole]

theorem Spells.toDouble?_isSome (h : n.Spells d) (hle : d.digits ≤ 10 ^ 18)
    (hup : 0 ≤ d.exponent → (scaleUp? (FloatFormat.double.nearest false d.digits 1) d.exponent.natAbs).isSome) :
    n.toDouble?.isSome := by
  have hsize : UInt64.size = 2 ^ 64 := rfl
  rcases h.scaled with ⟨hdigits, hpower⟩ | ⟨hfew, hdown⟩
  · refine Numeral.toDouble?_isSome (by omega) ?_
    rw [hdigits, hpower]
    exact (lt_or_ge d.exponent 0).imp_right hup
  · exact Numeral.toDouble?_isSome (by omega) (Or.inl hdown)

end Numeral

/-! ## Finite numbers -/

namespace FloatFormat

variable {f : FloatFormat} {bits m : ℕ} {q : ℤ} {negative : Bool}

/-- neither an infinity nor a NaN -/
def isFinite (f : FloatFormat) (bits : ℕ) : Bool :=
  match f.reading bits with
  | .finite .. => true
  | _ => false

theorem reading_finite (h : f.reading bits = .finite negative m q) :
    m < 2 * f.leadingBit ∧ q ≤ f.lowestScale + (f.topField - 2 : ℕ) := by
  have hleading : 0 < f.leadingBit := Nat.pow_pos two_pos
  have hfraction : bits % f.signBit % f.leadingBit < f.leadingBit := Nat.mod_lt _ hleading
  have hfield : bits % f.signBit / f.leadingBit ≤ f.topField := by
    have hlt : bits % f.signBit < 2 ^ f.exponentBits * 2 ^ f.fractionBits := by
      rw [← pow_add, add_comm]
      exact Nat.mod_lt _ (Nat.pow_pos two_pos)
    exact Nat.le_sub_one_of_lt ((Nat.div_lt_iff_lt_mul hleading).2 hlt)
  unfold reading at h
  dsimp only at h
  split_ifs at h
  · obtain ⟨-, rfl, rfl⟩ := Reading.finite.inj h
    exact ⟨by omega, by omega⟩
  · obtain ⟨-, rfl, rfl⟩ := Reading.finite.inj h
    exact ⟨by omega, by omega⟩

end FloatFormat

namespace Numeral

variable {f : FloatFormat} {layout : Layout} {bits m : ℕ} {q : ℤ} {negative : Bool}

/-- every number but the last one has the end of its interval before `lastEnd` -/
theorem end_le_lastEnd (hm : m < 2 ^ 53) (hq : q ≤ 971) (hlast : ¬(m = 2 ^ 53 - 1 ∧ q = 971)) :
    ((m : ℚ) + 1 / 2) * 2 ^ q ≤ lastEnd := by
  have hhalf : (0 : ℚ) ≤ (m : ℚ) + 1 / 2 := by positivity
  have hend : (lastEnd : ℚ) = (2 ^ 54 - 3) * 2 ^ 970 := by
    rw [lastEnd, Nat.cast_mul, Nat.cast_pow]
    norm_num only
  have hpos : (0 : ℚ) < 2 ^ 970 := by positivity
  rw [hend]
  rcases Int.lt_or_eq_of_le hq with hlow | rfl
  · have hmq : (m : ℚ) ≤ 2 ^ 53 - 1 := by
      rw [le_sub_iff_add_le]
      exact_mod_cast hm
    have hpow : (2 : ℚ) ^ q ≤ 2 ^ 970 := by
      rw [← zpow_natCast]
      exact zpow_le_zpow_right₀ one_le_two (by omega)
    refine (mul_le_mul_of_nonneg_left hpow hhalf).trans (mul_le_mul_of_nonneg_right ?_ hpos.le)
    linarith
  · have hmq : (m : ℚ) ≤ 2 ^ 53 - 2 := by
      have hle : m + 2 ≤ 2 ^ 53 := by omega
      rw [le_sub_iff_add_le]
      exact_mod_cast hle
    rw [show (971 : ℤ) = (970 : ℕ) + 1 from rfl, zpow_add_one₀ two_ne_zero, zpow_natCast]
    generalize (2 : ℚ) ^ 970 = p at *
    nlinarith

set_option maxRecDepth 10000 in
/-- the digits of the last number, which end just before the overflow bound -/
theorem shortest_last : FloatFormat.double.shortest .even (2 ^ 53 - 1) 971 = ⟨17976931348623157, 292⟩ := by decide +kernel

theorem scaleUp?_last : (scaleUp? (FloatFormat.double.nearest false 17976931348623157 1) 292).isSome := by decide +kernel

/-- the shortest digits are never scaled up too far -/
theorem scaleUp?_shortest (hpos : 0 < m) (hm : m < 2 ^ 53) (hq : q ≤ 971) (hlast : m = 2 ^ 53 - 1 ∧ q = 971 → f = .double)
    (hexp : 0 ≤ (f.shortest .even m q).exponent) : (scaleUp? (FloatFormat.double.nearest false
      (f.shortest .even m q).digits 1) (f.shortest .even m q).exponent.natAbs).isSome := by
  by_cases hmax : m = 2 ^ 53 - 1 ∧ q = 971
  · rw [hlast hmax, hmax.1, hmax.2, shortest_last]
    exact scaleUp?_last
  · obtain ⟨hdigits, hfew, hvalue⟩ := @shortest_spec .even f m q hpos hm
    have hle := hvalue.trans (end_le_lastEnd hm hq hmax)
    rw [Decimal.value, zpow_natAbs, if_neg (not_lt.2 hexp)] at hle
    exact scaleUp?_isSome hfew hdigits (by exact_mod_cast hle)

/-- **A finite number** has a numeral, which is written with a point and can be read. -/
theorem ofBits?_finite (h : f.reading bits = .finite negative m q) (hlimit : layout.limit ≤ 16) (hm : m < 2 ^ 53)
    (hq : q ≤ 971) (hlast : m = 2 ^ 53 - 1 ∧ q = 971 → f = .double) :
    ∃ n, ofBits? f layout bits = some n ∧ n.WellWritten ∧ n.toInt? = none ∧ n.toDouble?.isSome := by
  refine ⟨_, by rw [ofBits?, h], ?_⟩
  rcases Nat.eq_zero_or_pos m with rfl | hpos
  · rw [if_pos rfl]
    have hspells := ofDecimal_spells layout negative hlimit (Or.inr rfl)
    exact ⟨hspells.wellWritten, hspells.toInt?, hspells.toDouble?_isSome (by decide) fun _ => by decide +kernel⟩
  · rw [if_neg hpos.ne']
    obtain ⟨hdigits, hfew, -⟩ := @shortest_spec .even f m q hpos hm
    have hspells := ofDecimal_spells layout negative hlimit (Or.inl hdigits.ne')
    exact ⟨hspells.wellWritten, hspells.toInt?, hspells.toDouble?_isSome hfew (scaleUp?_shortest hpos hm hq hlast)⟩

/-- a numeral that stands for the finite numbers only, and can be read -/
structure Stands (n? : Option Numeral) (finite : Bool) : Prop where
  isSome : n?.isSome = finite
  readable : ∀ n, n? = some n → n.WellWritten ∧ n.toInt? = none ∧ n.toDouble?.isSome

/-- infinities and NaNs have no numeral, other patterns have one if they are in the range of 64-bit numbers -/
theorem ofBits?_stands (hlimit : layout.limit ≤ 16) (hrange : ∀ negative m q, f.reading bits = .finite negative m q →
    m < 2 ^ 53 ∧ q ≤ 971 ∧ (m = 2 ^ 53 - 1 ∧ q = 971 → f = .double)) :
    Stands (ofBits? f layout bits) (f.isFinite bits) := by
  unfold isFinite
  split
  · rename_i negative m q h
    obtain ⟨hm, hq, hlast⟩ := hrange negative m q h
    obtain ⟨n, hn, hreadable⟩ := ofBits?_finite h hlimit hm hq hlast
    rw [hn]
    exact ⟨rfl, fun n' h' => Option.some.inj h' ▸ hreadable⟩
  · have hnone : ofBits? f layout bits = none := by
      unfold ofBits?
      split
      · simp_all
      · rfl
    rw [hnone]
    exact ⟨rfl, by simp⟩

end Numeral

/-- neither an infinity nor a NaN -/
def Double.isFinite (a : Double) : Bool := FloatFormat.double.isFinite a.bits.toNat

/-- neither an infinity nor a NaN -/
def Single.isFinite (a : Single) : Bool := FloatFormat.single.isFinite a.bits.toNat

theorem Double.numeral?_stands (a : Double) : Numeral.Stands a.numeral? a.isFinite :=
  Numeral.ofBits?_stands (by decide) fun _ _ _ h => ⟨(reading_finite h).1, (reading_finite h).2, fun _ => rfl⟩

theorem Single.numeral?_stands (a : Single) : Numeral.Stands a.numeral? a.isFinite := by
  refine Numeral.ofBits?_stands (by decide) fun _ m q h => ?_
  have hm : m < 2 ^ 24 := (reading_finite h).1
  have hq : q ≤ 104 := (reading_finite h).2
  exact ⟨by omega, by omega, fun hlast => by omega⟩

end ConceptGraph
