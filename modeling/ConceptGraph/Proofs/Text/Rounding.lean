/-
Rounding to 64 bits.

- `roundHalfEven_le`, `log2Quotient_spec`: a quotient rounded to a whole number, and its binary logarithm.
- `value`: the number that a pattern stands for. `value_units` reads it off a pattern that is put together from units.
- `nearest_spec`: the nearest pattern is put together from the nearest number of units (`Nearest`).
- `nearest_lt`, `times_lt`: a quotient or a product below `overflow` is not rounded to infinity.
- `value_nearest_le`: a whole number grows by one part in 2 ^ 53 at most.
-/
import Mathlib.Tactic
import ConceptGraph.Floating.Arithmetic

namespace ConceptGraph.FloatFormat

variable {num den m k : ℕ} {q : ℤ}

/-! ## Whole numbers -/

/-- rounding adds a half at most -/
theorem roundHalfEven_le (num : ℕ) (hden : 0 < den) : 2 * roundHalfEven num den * den ≤ 2 * num + den := by
  have hdiv := Nat.div_add_mod num den
  have hmod := Nat.mod_lt num hden
  have hstep : 2 * (num / den + 1) * den = 2 * (den * (num / den)) + 2 * den := by ring
  have hsame : 2 * (num / den) * den = 2 * (den * (num / den)) := by ring
  unfold roundHalfEven
  dsimp only
  split_ifs <;> omega

theorem le_roundHalfEven : num / den ≤ roundHalfEven num den := by
  unfold roundHalfEven
  dsimp only
  split_ifs <;> omega

theorem roundHalfEven_one : roundHalfEven num 1 = num := by simp [roundHalfEven, Nat.mod_one]

/-- the first guess at a binary logarithm is right, or too large by one -/
theorem guess_spec (hnum : 0 < num) (hden : 0 < den) :
    (2 : ℚ) ^ ((num.log2 : ℤ) - den.log2 - 1) < num / den ∧ (num : ℚ) / den < 2 ^ ((num.log2 : ℤ) - den.log2 + 1) := by
  have hn : (0 : ℚ) < num := by exact_mod_cast hnum
  have hd : (0 : ℚ) < den := by exact_mod_cast hden
  have hnlow : (2 : ℚ) ^ num.log2 ≤ num := by exact_mod_cast Nat.log2_self_le hnum.ne'
  have hnhigh : (num : ℚ) < 2 ^ (num.log2 + 1) := by exact_mod_cast Nat.lt_log2_self
  have hdlow : (2 : ℚ) ^ den.log2 ≤ den := by exact_mod_cast Nat.log2_self_le hden.ne'
  have hdhigh : (den : ℚ) < 2 ^ (den.log2 + 1) := by exact_mod_cast Nat.lt_log2_self
  constructor
  · rw [lt_div_iff₀ hd, show (num.log2 : ℤ) - den.log2 - 1 = (num.log2 : ℤ) - (den.log2 + 1 : ℕ) by push_cast; ring,
      zpow_sub₀ two_ne_zero, zpow_natCast, zpow_natCast, div_mul_eq_mul_div, div_lt_iff₀ (by positivity)]
    calc (2 : ℚ) ^ num.log2 * den < 2 ^ num.log2 * 2 ^ (den.log2 + 1) := by gcongr
      _ ≤ num * 2 ^ (den.log2 + 1) := by gcongr
  · rw [div_lt_iff₀ hd, show (num.log2 : ℤ) - den.log2 + 1 = (num.log2 + 1 : ℕ) - (den.log2 : ℤ) by push_cast; ring,
      zpow_sub₀ two_ne_zero, zpow_natCast, zpow_natCast, div_mul_eq_mul_div, lt_div_iff₀ (by positivity)]
    calc (num : ℚ) * 2 ^ den.log2 < 2 ^ (num.log2 + 1) * 2 ^ den.log2 := by gcongr
      _ ≤ 2 ^ (num.log2 + 1) * den := by gcongr

/-- a power, by the sign of its exponent -/
theorem zpow_natAbs (x : ℚ) (q : ℤ) : x ^ q = if q < 0 then (x ^ q.natAbs)⁻¹ else x ^ q.natAbs := by
  split_ifs with hq
  · rw [← zpow_natCast, ← zpow_neg]
    congr 1
    omega
  · rw [← zpow_natCast]
    congr 1
    omega

/-- **The binary logarithm** of a quotient, as a bound on both sides. -/
theorem log2Quotient_spec (hnum : 0 < num) (hden : 0 < den) :
    (2 : ℚ) ^ log2Quotient num den ≤ num / den ∧ (num : ℚ) / den < 2 ^ (log2Quotient num den + 1) := by
  have hd : (0 : ℚ) < den := by exact_mod_cast hden
  obtain ⟨hlow, hhigh⟩ := guess_spec hnum hden
  unfold log2Quotient
  set guess : ℤ := (num.log2 : ℤ) - den.log2
  have hreached : (if guess < 0 then den ≤ num * Nat.pow 2 guess.natAbs else den * Nat.pow 2 guess.natAbs ≤ num) ↔
      (2 : ℚ) ^ guess ≤ num / den := by
    rw [le_div_iff₀ hd, zpow_natAbs]
    split_ifs with hneg
    · rw [inv_mul_le_iff₀ (by positivity)]
      norm_cast
      rw [mul_comm]
      rfl
    · norm_cast
      rw [mul_comm]
      rfl
  simp only [hreached]
  split_ifs with h
  · exact ⟨h, hhigh⟩
  · exact ⟨hlow.le, by rw [sub_add_cancel]; exact lt_of_not_ge h⟩

/-! ## Patterns -/

/-- the number that a finite pattern stands for, without its sign -/
def value (bits : ℕ) : ℚ := (double.magnitude bits).1 * 2 ^ (double.magnitude bits).2

theorem value_nonneg (bits : ℕ) : 0 ≤ value bits := mul_nonneg (Nat.cast_nonneg _) (zpow_nonneg zero_le_two _)

/-- half a unit past the largest number -/
def overflow : ℚ := (2 ^ 54 - 1) * 2 ^ 970

theorem lt_overflow {x : ℚ} (h : x ≤ 2 ^ 970) : x < overflow := by
  have hpos : (0 : ℚ) < 2 ^ 970 := by positivity
  unfold overflow
  generalize (2 : ℚ) ^ 970 = p at *
  linarith

theorem overflow_lt : overflow < 2 ^ (1024 : ℤ) := by
  have hpos : (0 : ℚ) < 2 ^ 970 := by positivity
  rw [overflow, show (1024 : ℤ) = (54 + 970 : ℕ) from rfl, zpow_natCast, pow_add]
  generalize (2 : ℚ) ^ 970 = p at *
  linarith

theorem overflow_add : overflow + 2 ^ 970 = 2 ^ 53 * 2 ^ 971 := by
  rw [overflow, pow_succ 2 970]
  generalize (2 : ℚ) ^ 970 = p
  ring

theorem leadingBit_double : double.leadingBit = 2 ^ 52 := by decide

theorem lowestScale_double : double.lowestScale = -1074 := by decide

theorem topField_double : double.topField = 2047 := by decide

theorem signBit_double : double.signBit = 2 ^ 63 := by decide

theorem infinityBits_double : double.infinityBits = 2047 * 2 ^ 52 := by decide

theorem magnitude_eq {bits : ℕ} (h : bits < double.infinityBits) : double.magnitude bits =
    if bits / 2 ^ 52 = 0 then (bits % 2 ^ 52, -1074) else (2 ^ 52 + bits % 2 ^ 52, ((bits / 2 ^ 52 - 1 : ℕ) : ℤ) - 1074) := by
  rw [infinityBits_double] at h
  have hsign : bits % double.signBit = bits := Nat.mod_eq_of_lt (by rw [signBit_double]; omega)
  have htop : bits / 2 ^ 52 ≠ 2047 := by omega
  simp only [magnitude, reading, hsign, leadingBit_double, lowestScale_double, topField_double, if_neg htop]
  split_ifs
  · rfl
  · dsimp only
    rw [add_comm (-1074 : ℤ), sub_eq_add_neg]

/-- a pattern that is put together from units, `2 ^ 52` of them for each step of the scale -/
theorem value_units (hm : m ≤ 2 ^ 53) (hk : k = 0 ∨ 2 ^ 52 ≤ m) (hlt : k * 2 ^ 52 + m < double.infinityBits) :
    value (k * 2 ^ 52 + m) = m * 2 ^ ((k : ℤ) - 1074) := by
  have hstep : ∀ i : ℤ, (2 : ℚ) ^ (i + 1) = 2 * 2 ^ i := fun i => by rw [zpow_add_one₀ two_ne_zero, mul_comm]
  rw [value, magnitude_eq hlt]
  rcases Nat.lt_or_ge m (2 ^ 52) with hlow | hhigh
  · obtain rfl : k = 0 := by omega
    have hfield : (0 * 2 ^ 52 + m) / 2 ^ 52 = 0 := by omega
    have hfraction : (0 * 2 ^ 52 + m) % 2 ^ 52 = m := by omega
    rw [if_pos hfield, hfraction]
    norm_num
  · rcases Nat.lt_or_ge m (2 ^ 53) with hlt53 | hge53
    · have hfield : (k * 2 ^ 52 + m) / 2 ^ 52 = k + 1 := by omega
      have hfraction : 2 ^ 52 + (k * 2 ^ 52 + m) % 2 ^ 52 = m := by omega
      rw [hfield, if_neg (by omega), hfraction]
      norm_num
    · -- all units of this scale, which is one unit of the leading bit in the next one
      obtain rfl : m = 2 ^ 53 := by omega
      have hfield : (k * 2 ^ 52 + 2 ^ 53) / 2 ^ 52 = k + 2 := by omega
      have hfraction : 2 ^ 52 + (k * 2 ^ 52 + 2 ^ 53) % 2 ^ 52 = 2 ^ 52 := by omega
      rw [hfield, if_neg (by omega), hfraction, show ((k + 2 - 1 : ℕ) : ℤ) - 1074 = ((k : ℤ) - 1074) + 1 by omega, hstep]
      push_cast
      ring

/-! ## The nearest pattern -/

/-- how many units of `2 ^ (k - 1074)` are nearest to a quotient -/
structure Nearest (num den k m : ℕ) : Prop where
  le_top : m ≤ 2 ^ 53
  full : k = 0 ∨ 2 ^ 52 ≤ m ∧ (2 : ℚ) ^ ((k : ℤ) - 1022) ≤ num / den
  le_add_half : (m : ℚ) * 2 ^ ((k : ℤ) - 1074) ≤ num / den + 2 ^ ((k : ℤ) - 1075)
  exact : den = 1 → k ≤ 1074 → (m : ℚ) * 2 ^ ((k : ℤ) - 1074) = num

/-- the quotient in units of `2 ^ scale`, as it is rounded -/
def unitsNear (num den : ℕ) (scale : ℤ) : ℕ :=
  if scale < 0 then roundHalfEven (num * Nat.pow 2 scale.natAbs) den
  else roundHalfEven num (den * Nat.pow 2 scale.natAbs)

theorem nearest_eq (hnum : 0 < num) : double.nearest false num den = min double.infinityBits
    ((max (-1074) (log2Quotient num den - 52) + 1074).toNat * 2 ^ 52 +
      unitsNear num den (max (-1074) (log2Quotient num den - 52))) := by
  have hfraction : ((double.fractionBits : ℕ) : ℤ) = 52 := rfl
  simp only [nearest, if_neg hnum.ne', leadingBit_double, lowestScale_double, hfraction, sub_neg_eq_add, withSign,
    unitsNear, Bool.false_eq_true, if_false]

/-- what is rounded is the quotient in units; a whole number in units below one is kept -/
theorem unitsNear_eq (num : ℕ) (hden : 0 < den) (scale : ℤ) : ∃ a b : ℕ, unitsNear num den scale = roundHalfEven a b ∧ 0 < b ∧
    (a : ℚ) / b = num / den / 2 ^ scale ∧ (den = 1 → scale ≤ 0 → b = 1) := by
  have hd : (0 : ℚ) < den := by exact_mod_cast hden
  unfold unitsNear
  rw [zpow_natAbs]
  split_ifs with hneg
  · refine ⟨_, _, rfl, hden, ?_, fun h _ => h⟩
    rw [Nat.pow_eq, Nat.cast_mul, Nat.cast_pow, Nat.cast_ofNat]
    field_simp
  · refine ⟨_, _, rfl, Nat.mul_pos hden (Nat.pow_pos two_pos), ?_, fun h hle => ?_⟩
    · rw [Nat.pow_eq, Nat.cast_mul, Nat.cast_pow, Nat.cast_ofNat]
      field_simp
    · rw [h, show scale = 0 by omega]
      rfl

/-- **The nearest pattern** is put together from the nearest number of units. -/
theorem nearest_spec (hnum : 0 < num) (hden : 0 < den) : ∃ k m, Nearest num den k m ∧
    double.nearest false num den = min double.infinityBits (k * 2 ^ 52 + m) := by
  obtain ⟨hlow, hhigh⟩ := log2Quotient_spec hnum hden
  set scale : ℤ := max (-1074) (log2Quotient num den - 52) with hscale
  have hk : ((scale + 1074).toNat : ℤ) - 1074 = scale := by omega
  obtain ⟨a, b, hunits, hb, hab, hone⟩ := unitsNear_eq num hden scale
  have hb' : (0 : ℚ) < b := by exact_mod_cast hb
  have hround : (2 : ℚ) * roundHalfEven a b * b ≤ 2 * a + b := by exact_mod_cast roundHalfEven_le a hb
  have hpow : (0 : ℚ) < 2 ^ scale := by positivity
  refine ⟨_, _, ⟨?_, ?_, ?_, ?_⟩, nearest_eq hnum⟩
  all_goals rw [← hscale, hunits]
  · have hx : (a : ℚ) / b < 2 ^ 53 := by
      rw [hab, div_lt_iff₀ hpow, ← zpow_natCast, ← zpow_add₀ two_ne_zero]
      refine hhigh.trans_le (zpow_le_zpow_right₀ one_le_two ?_)
      push_cast
      omega
    rw [div_lt_iff₀ hb'] at hx
    have hlt : a < 2 ^ 53 * b := by exact_mod_cast hx
    by_contra hgt
    have hmul : 2 * (2 ^ 53 + 1) * b ≤ 2 * roundHalfEven a b * b := by gcongr; omega
    have hle := roundHalfEven_le a hb
    omega
  · rcases le_or_gt (log2Quotient num den - 52) (-1074) with hsub | hnormal
    · exact Or.inl (by omega)
    · have hbelow : (2 : ℚ) ^ (scale + 52) ≤ num / den := by rwa [show scale + 52 = log2Quotient num den by omega]
      refine Or.inr ⟨?_, by rwa [show ((scale + 1074).toNat : ℤ) - 1022 = scale + 52 by omega]⟩
      rw [zpow_add₀ two_ne_zero, mul_comm, ← le_div_iff₀ hpow, ← hab, le_div_iff₀ hb'] at hbelow
      exact ((Nat.le_div_iff_mul_le hb).2 (by exact_mod_cast hbelow)).trans le_roundHalfEven
  · have hhalf : (roundHalfEven a b : ℚ) ≤ num / den / 2 ^ scale + 1 / 2 := by
      rw [← hab, div_add' _ _ _ hb'.ne', le_div_iff₀ hb']
      linarith
    have hprev : (2 : ℚ) ^ (((scale + 1074).toNat : ℤ) - 1075) = 2 ^ scale * (1 / 2) := by
      rw [show ((scale + 1074).toNat : ℤ) - 1075 = scale - 1 by omega, zpow_sub_one₀ two_ne_zero]
      norm_num
    rw [hk, hprev]
    calc (roundHalfEven a b : ℚ) * 2 ^ scale ≤ (num / den / 2 ^ scale + 1 / 2) * 2 ^ scale := by gcongr
      _ = num / den + 2 ^ scale * (1 / 2) := by field_simp
  · intro hden hsmall
    have hb1 : b = 1 := hone hden (by omega)
    rw [hk, hb1, roundHalfEven_one]
    rw [hb1, hden, Nat.cast_one, div_one, div_one] at hab
    rw [hab]
    field_simp

/-- **Below the overflow bound** no quotient is rounded to infinity. -/
theorem nearest_lt (hden : 0 < den) (h : (num : ℚ) / den < overflow) : double.nearest false num den < double.infinityBits := by
  rcases Nat.eq_zero_or_pos num with rfl | hnum
  · rw [nearest, if_pos rfl]
    decide
  obtain ⟨k, m, hnear, heq⟩ := nearest_spec hnum hden
  rw [heq, infinityBits_double]
  refine min_lt_iff.2 (Or.inr ?_)
  have htop := hnear.le_top
  rcases hnear.full with rfl | ⟨-, hfull⟩
  · omega
  · have hk : (2 : ℚ) ^ ((k : ℤ) - 1022) < 2 ^ (1024 : ℤ) := (hfull.trans_lt h).trans overflow_lt
    rw [zpow_lt_zpow_iff_right₀ one_lt_two] at hk
    rcases Nat.lt_or_ge k 2045 with hlow | hhigh
    · omega
    · -- in the last scale there has to be room for the units
      obtain rfl : k = 2045 := by omega
      have hroom : (m : ℚ) * 2 ^ 971 < 2 ^ 53 * 2 ^ 971 :=
        calc (m : ℚ) * 2 ^ 971 ≤ num / den + 2 ^ 970 := hnear.le_add_half
          _ < overflow + 2 ^ 970 := add_lt_add_of_lt_of_le h le_rfl
          _ = 2 ^ 53 * 2 ^ 971 := overflow_add
      have hm : m < 2 ^ 53 := by exact_mod_cast lt_of_mul_lt_mul_right hroom (by positivity)
      omega

theorem nearestBinary_lt (h : (m : ℚ) * 2 ^ q < overflow) : double.nearestBinary false m q < double.infinityBits := by
  rw [zpow_natAbs] at h
  unfold nearestBinary
  split_ifs at h ⊢
  · refine nearest_lt (Nat.pow_pos two_pos) ?_
    rwa [Nat.pow_eq, Nat.cast_pow, Nat.cast_ofNat, div_eq_mul_inv]
  · refine nearest_lt one_pos ?_
    rwa [Nat.pow_eq, Nat.cast_one, div_one, Nat.cast_mul, Nat.cast_pow, Nat.cast_ofNat]

/-- **A product** below the bound is not rounded to infinity. -/
theorem times_lt {a b : ℕ} (h : value a * value b < overflow) : double.times a b < double.infinityBits := by
  refine nearestBinary_lt ?_
  rw [zpow_add₀ two_ne_zero, Nat.cast_mul, mul_mul_mul_comm]
  exact h

/-- **A whole number** grows by one part in `2 ^ 53` at most when it is rounded, and not at all below `2 ^ 53`. -/
theorem value_nearest_le {c : ℕ} (hc : c < 2 ^ 64) : value (double.nearest false c 1) ≤ (c + c / 2 ^ 53 : ℕ) := by
  rcases Nat.eq_zero_or_pos c with rfl | hpos
  · rw [nearest, if_pos rfl]
    decide +kernel
  have hlt : double.nearest false c 1 < double.infinityBits := nearest_lt one_pos (by
    have hle : (c : ℚ) ≤ 2 ^ 64 := by exact_mod_cast hc.le
    rw [Nat.cast_one, div_one]
    exact lt_overflow (hle.trans (pow_le_pow_right₀ one_le_two (by decide))))
  obtain ⟨k, m, hnear, heq⟩ := nearest_spec hpos one_pos
  rw [heq] at hlt ⊢
  rw [min_eq_right (by omega)] at hlt ⊢
  rw [value_units hnear.le_top (hnear.full.imp_right And.left) hlt]
  rcases le_or_gt k 1074 with hsmall | hlarge
  · rw [hnear.exact rfl hsmall]
    exact_mod_cast Nat.le_add_right _ _
  · obtain ⟨j, rfl⟩ : ∃ j, k = j + 1075 := ⟨k - 1075, by omega⟩
    have hfull : (2 : ℚ) ^ (j + 53) ≤ c := by
      rcases hnear.full with h0 | ⟨-, hfull⟩
      · omega
      · rwa [Nat.cast_one, div_one, show ((j + 1075 : ℕ) : ℤ) - 1022 = (j + 53 : ℕ) by omega, zpow_natCast] at hfull
    have hj : 2 ^ j ≤ c / 2 ^ 53 := (Nat.le_div_iff_mul_le (by positivity)).2 (by rw [← pow_add]; exact_mod_cast hfull)
    refine hnear.le_add_half.trans ?_
    rw [Nat.cast_one, div_one, show ((j + 1075 : ℕ) : ℤ) - 1075 = (j : ℕ) by omega, zpow_natCast]
    push_cast
    gcongr
    exact_mod_cast hj

end ConceptGraph.FloatFormat
