/-
The shortest digits of a binary number.

- `log10Quotient_spec`: the decimal logarithm, as a bound on both sides.
- `Reach.onGrid_spec`, `Reach.onGrid_isSome`: a hit is in the interval of the number, and a fine grid has one.
- `Reach.search_spec`: the search stops at a hit if one of the grids it tries has one.
- `shortest_spec`: so there are digits, at most eighteen of them, and their number is not past the interval.
-/
import Mathlib.Tactic
import ConceptGraph.Floating.Shortest
import ConceptGraph.Proofs.Text.Rounding

namespace ConceptGraph

namespace Decimal

/-- the number that it stands for -/
def value (d : Decimal) : ℚ := d.digits * 10 ^ d.exponent

/-- trailing zeros can be left out -/
theorem trim_spec (fuel : ℕ) (d : Decimal) (hd : 0 < d.digits) :
    0 < (trim fuel d).digits ∧ (trim fuel d).digits ≤ d.digits ∧ (trim fuel d).value = d.value := by
  induction fuel generalizing d with
  | zero => exact ⟨hd, le_rfl, rfl⟩
  | succ fuel ih =>
    rw [trim]
    split_ifs with hzero
    · obtain ⟨hpos, hle, hvalue⟩ := ih ⟨d.digits / 10, d.exponent + 1⟩ (by dsimp only; omega)
      refine ⟨hpos, hle.trans (Nat.div_le_self _ _), hvalue.trans ?_⟩
      obtain ⟨c, hc⟩ := Nat.dvd_of_mod_eq_zero hzero.1
      simp only [value, hc, Nat.mul_div_cancel_left c (by decide : 0 < 10), zpow_add_one₀ (by norm_num : (10 : ℚ) ≠ 0)]
      push_cast
      ring
    · exact ⟨hd, le_rfl, rfl⟩

end Decimal

namespace FloatFormat

variable {num den c i j : ℕ} {k : ℤ} {tie : Tie}

/-! ## The decimal logarithm -/

/-- the search for a power of ten stops at the first one that is enough -/
theorem tensToReach_spec (fuel : ℕ) {start t : ℕ} (ht : start ≤ t) (hlt : t < start + fuel) (h : den ≤ num * 10 ^ t) :
    den ≤ num * 10 ^ tensToReach num den fuel start ∧ start ≤ tensToReach num den fuel start ∧
      ∀ u, start ≤ u → u < tensToReach num den fuel start → num * 10 ^ u < den := by
  induction fuel generalizing start with
  | zero => omega
  | succ fuel ih =>
    rw [tensToReach]
    split_ifs with hstart
    · exact ⟨hstart, le_rfl, fun u hle hlt => absurd hlt (by omega)⟩
    · have hne : start ≠ t := fun he => hstart (he ▸ h)
      obtain ⟨hreach, hle, hfirst⟩ := @ih (start + 1) (by omega) (by omega)
      refine ⟨hreach, by omega, fun u hu hlt => ?_⟩
      rcases Nat.eq_or_lt_of_le hu with rfl | hu
      · exact lt_of_not_ge hstart
      · exact hfirst u hu hlt

/-- **The decimal logarithm** of a quotient, as a bound on both sides. -/
theorem log10Quotient_spec (hnum : 0 < num) (hden : 0 < den) :
    (10 : ℚ) ^ log10Quotient num den ≤ num / den ∧ (num : ℚ) / den < 10 ^ (log10Quotient num den + 1) := by
  have hd : (0 : ℚ) < den := by exact_mod_cast hden
  unfold log10Quotient
  split_ifs with hge
  · -- as many digits as the whole part has
    have hpos : 0 < num / den := Nat.div_pos hge hden
    set width := (Nat.toDigits 10 (num / den)).length with hwidth
    have hne : 0 < width := List.length_pos_iff.2 Nat.toDigits_ne_nil
    have hhigh : num / den < 10 ^ width := (Nat.length_toDigits_le_iff (by decide) hne).1 le_rfl
    have hlow : 10 ^ (width - 1) ≤ num / den := by
      rcases Nat.eq_zero_or_pos (width - 1) with h0 | h0
      · rw [h0, pow_zero]
        exact hpos
      · by_contra hlt
        have := (Nat.length_toDigits_le_iff (by decide) h0).2 (lt_of_not_ge hlt)
        omega
    rw [sub_add_cancel, show (width : ℤ) - 1 = (width - 1 : ℕ) by omega, zpow_natCast, zpow_natCast, le_div_iff₀ hd,
      div_lt_iff₀ hd]
    exact ⟨by exact_mod_cast (Nat.le_div_iff_mul_le hden).1 hlow, by exact_mod_cast (Nat.div_lt_iff_lt_mul hden).1 hhigh⟩
  · have henough : den ≤ num * 10 ^ (den.log2 + 1) :=
      calc den ≤ 2 ^ (den.log2 + 1) := Nat.lt_log2_self.le
        _ ≤ 10 ^ (den.log2 + 1) := Nat.pow_le_pow_left (by decide) _
        _ ≤ num * 10 ^ (den.log2 + 1) := Nat.le_mul_of_pos_left _ hnum
    obtain ⟨hreach, hstart, hfirst⟩ := tensToReach_spec (den.log2 + 1) (Nat.le_add_left 1 _) (by omega) henough
    set t := tensToReach num den (den.log2 + 1) 1
    have hprev : num * 10 ^ (t - 1) < den := by
      rcases Nat.lt_or_ge 1 t with hlt | hle
      · exact hfirst (t - 1) (by omega) (by omega)
      · rw [show t - 1 = 0 by omega, pow_zero, mul_one]
        exact lt_of_not_ge hge
    constructor
    · rw [zpow_neg, zpow_natCast, le_div_iff₀ hd, inv_mul_le_iff₀ (by positivity), mul_comm]
      exact_mod_cast hreach
    · rw [show -(t : ℤ) + 1 = -((t - 1 : ℕ) : ℤ) by omega, zpow_neg, zpow_natCast, div_lt_iff₀ hd, lt_inv_mul_iff₀ (by positivity),
        mul_comm]
      exact_mod_cast hprev

/-! ## Grids -/

namespace Reach

variable {r : Reach}

/-- the unit of an interval -/
def unit (r : Reach) : ℚ := r.num / r.den

/-- a unit in steps of the grid of `10 ^ k` -/
theorem unit_div (hden : 0 < r.den) (k : ℤ) : ∃ a b : ℕ, 0 < b ∧
    (if k < 0 then r.num * Nat.pow 10 k.natAbs else r.num) = a ∧
    (if k < 0 then r.den else r.den * Nat.pow 10 k.natAbs) = b ∧ (a : ℚ) / b = r.unit / 10 ^ k := by
  have hd : (0 : ℚ) < r.den := by exact_mod_cast hden
  refine ⟨_, _, ?_, rfl, rfl, ?_⟩
  · split_ifs
    · exact hden
    · exact Nat.mul_pos hden (Nat.pow_pos (by decide))
  · rw [unit, zpow_natAbs]
    split_ifs with hk
    · rw [Nat.pow_eq, Nat.cast_mul, Nat.cast_pow, Nat.cast_ofNat]
      field_simp
    · rw [Nat.pow_eq, Nat.cast_mul, Nat.cast_pow, Nat.cast_ofNat]
      field_simp

theorem holds_le {a b : ℕ} (h : r.holds a b c) : 0 < c ∧ c * b ≤ r.high * a := by
  unfold holds at h
  split at h <;> simp only [Bool.and_eq_true, decide_eq_true_eq] at h
  · exact ⟨h.2, h.1.2⟩
  · exact ⟨h.2, h.1.2.le⟩

theorem holds_of_lt {a b : ℕ} (hlow : r.low * a < c * b) (hhigh : c * b < r.high * a) : r.holds a b c := by
  have hpos : 0 < c := Nat.pos_of_ne_zero fun h0 => by simp [h0] at hlow
  unfold holds
  split <;> simp only [Bool.and_eq_true, decide_eq_true_eq]
  · exact ⟨⟨hlow.le, hhigh.le⟩, hpos⟩
  · exact ⟨⟨hlow, hhigh⟩, hpos⟩

/-- **A hit** is a positive number, in the interval and less than a step above the middle. -/
theorem onGrid_spec (hden : 0 < r.den) (h : r.onGrid tie k = some c) :
    0 < c ∧ (c : ℚ) * 10 ^ k ≤ r.high * r.unit ∧ (c - 1 : ℚ) * 10 ^ k ≤ r.mid * r.unit := by
  obtain ⟨a, b, hb, ha, hb', hunit⟩ := unit_div hden k
  have hbq : (0 : ℚ) < b := by exact_mod_cast hb
  have hten : (0 : ℚ) < 10 ^ k := by positivity
  have hc : r.holds a b c ∧ (c = r.mid * a / b ∨ c = r.mid * a / b + 1) := by
    unfold onGrid at h
    simp only [ha, hb'] at h
    split at h
    · cases h
    · obtain rfl := Option.some.inj h
      exact ⟨by assumption, Or.inl rfl⟩
    · obtain rfl := Option.some.inj h
      exact ⟨by assumption, Or.inr rfl⟩
    · rename_i hbelow habove
      have hchoice : r.mid * a / b = c ∨ r.mid * a / b + 1 = c := by
        split_ifs at h <;> cases tie <;> simp_all
      rcases hchoice with rfl | rfl
      · exact ⟨hbelow, Or.inl rfl⟩
      · exact ⟨habove, Or.inr rfl⟩
  obtain ⟨hpos, hle⟩ := holds_le hc.1
  have hstep : (c - 1 : ℚ) * b ≤ r.mid * a := by
    have hfloor : ((r.mid * a / b : ℕ) : ℚ) * b ≤ r.mid * a := by exact_mod_cast Nat.div_mul_le_self _ _
    have hceil : (c : ℚ) - 1 ≤ (r.mid * a / b : ℕ) := by
      rcases hc.2 with rfl | rfl
      · linarith
      · push_cast
        linarith
    exact (mul_le_mul_of_nonneg_right hceil hbq.le).trans hfloor
  have hscale : (a : ℚ) * 10 ^ k = r.unit * b := by
    rw [div_eq_div_iff hbq.ne' hten.ne'] at hunit
    exact hunit
  refine ⟨hpos, ?_, ?_⟩
  · have hle' : (c : ℚ) * b ≤ r.high * a := by exact_mod_cast hle
    refine le_of_mul_le_mul_right ?_ hbq
    calc (c : ℚ) * 10 ^ k * b = c * b * 10 ^ k := by ring
      _ ≤ r.high * a * 10 ^ k := by gcongr
      _ = r.high * r.unit * b := by rw [mul_assoc, hscale, mul_assoc]
  · refine le_of_mul_le_mul_right ?_ hbq
    calc (c - 1 : ℚ) * 10 ^ k * b = (c - 1) * b * 10 ^ k := by ring
      _ ≤ r.mid * a * 10 ^ k := by gcongr
      _ = r.mid * r.unit * b := by rw [mul_assoc, hscale, mul_assoc]

/-- **A fine grid** has a hit: the number below the middle is in the interval. -/
theorem onGrid_isSome (hden : 0 < r.den) (hlow : r.low < r.mid) (hhigh : r.mid < r.high) (hk : (10 : ℚ) ^ k ≤ r.unit) :
    (r.onGrid tie k).isSome := by
  obtain ⟨a, b, hb, ha, hb', hunit⟩ := unit_div hden k
  have hten : (0 : ℚ) < 10 ^ k := by positivity
  have hba : b ≤ a := by
    have hbq : (0 : ℚ) < b := by exact_mod_cast hb
    have hone : (1 : ℚ) ≤ a / b := by rwa [hunit, le_div_iff₀ hten, one_mul]
    rw [le_div_iff₀ hbq, one_mul] at hone
    exact_mod_cast hone
  have hbelow : r.holds a b (r.mid * a / b) := by
    have hdiv := Nat.div_add_mod (r.mid * a) b
    have hmod := Nat.mod_lt (r.mid * a) hb
    rw [mul_comm b] at hdiv
    have hnext : (r.low + 1) * a ≤ r.mid * a := Nat.mul_le_mul_right a hlow
    rw [add_one_mul] at hnext
    have hlast : r.mid * a < r.high * a := Nat.mul_lt_mul_of_pos_right hhigh (hb.trans_le hba)
    exact holds_of_lt (by omega) (by omega)
  unfold onGrid
  simp only [ha, hb', hbelow]
  cases r.holds a b (r.mid * a / b + 1) with
  | false => rfl
  | true => split_ifs <;> cases tie <;> rfl

/-- **The search** stops at a hit, at the latest where a grid is known to have one. -/
theorem search_spec {fuel : ℕ} (hj : j < fuel) (hhit : (r.onGrid tie (k - j)).isSome) : ∃ i ≤ j, ∃ c,
    r.onGrid tie (k - i) = some c ∧ r.search tie fuel k = Decimal.trim 20 ⟨c, k - i⟩ := by
  induction fuel generalizing k j with
  | zero => omega
  | succ fuel ih =>
    rw [search]
    cases hgrid : r.onGrid tie k with
    | some c => exact ⟨0, Nat.zero_le j, c, by simpa using hgrid, by simp⟩
    | none =>
      obtain ⟨j, rfl⟩ : ∃ n, j = n + 1 := Nat.exists_eq_succ_of_ne_zero fun h0 => by simp [h0, hgrid] at hhit
      have hshift : ∀ n : ℕ, k - (n + 1 : ℕ) = k - 1 - n := fun n => by push_cast; ring
      rw [hshift] at hhit
      obtain ⟨i, hi, c, hc, hsearch⟩ := ih (by omega) hhit
      exact ⟨i + 1, by omega, c, by rw [hshift, hc], by rw [hshift, hsearch]⟩

end Reach

/-! ## The shortest digits -/

variable {f : FloatFormat} {m : ℕ} {q : ℤ}

theorem unit_reach : (f.reach m q).unit = 2 ^ (q - 2) := by
  rw [Reach.unit, reach, zpow_natAbs]
  dsimp only
  split_ifs <;> simp

theorem den_reach : 0 < (f.reach m q).den := by
  unfold reach
  dsimp only
  split_ifs
  · exact Nat.pow_pos two_pos
  · exact one_pos

theorem num_reach : 0 < (f.reach m q).num := by
  unfold reach
  dsimp only
  split_ifs
  · exact one_pos
  · exact Nat.pow_pos two_pos

theorem low_reach (hm : 0 < m) : (f.reach m q).low < (f.reach m q).mid := by
  unfold reach
  dsimp only
  split_ifs <;> omega

/-- **The shortest digits** of a number: eighteen at most, and they stay in its interval. -/
theorem shortest_spec (hm : 0 < m) (hlt : m < 2 ^ 53) : 0 < (f.shortest tie m q).digits ∧
    (f.shortest tie m q).digits ≤ 10 ^ 18 ∧ (f.shortest tie m q).value ≤ (m + 1 / 2) * 2 ^ q := by
  have hten : (10 : ℚ) ≠ 0 := by norm_num
  have hunit : (0 : ℚ) < 2 ^ (q - 2) := by positivity
  have hmid : ((f.reach m q).mid : ℚ) = 4 * m := by simp [reach]
  have hhigh : ((f.reach m q).high : ℚ) = 4 * m + 2 := by simp [reach]
  have hnum : 0 < (f.reach m q).mid * (f.reach m q).num := Nat.mul_pos (Nat.mul_pos (by decide) hm) num_reach
  obtain ⟨hfloor, hceil⟩ := log10Quotient_spec hnum (@den_reach f m q)
  rw [Nat.cast_mul, mul_div_assoc, ← Reach.unit, unit_reach, hmid] at hfloor hceil
  set k := log10Quotient ((f.reach m q).mid * (f.reach m q).num) (f.reach m q).den
  have hfine : (10 : ℚ) ^ (k - (17 : ℕ)) ≤ (f.reach m q).unit := by
    have hbits : (m : ℚ) < 2 ^ 53 := by exact_mod_cast hlt
    rw [zpow_sub₀ hten, zpow_natCast, div_le_iff₀ (by positivity), unit_reach]
    refine hfloor.trans ?_
    rw [mul_comm]
    gcongr
    linarith
  obtain ⟨i, hi, c, hgrid, hsearch⟩ := Reach.search_spec (by decide : 17 < 20)
    (@Reach.onGrid_isSome _ tie _ den_reach (low_reach hm) (Nat.lt_add_of_pos_right two_pos) hfine)
  obtain ⟨hpos, hle, hprev⟩ := Reach.onGrid_spec den_reach hgrid
  obtain ⟨htpos, htle, htvalue⟩ := Decimal.trim_spec 20 ⟨c, k - i⟩ hpos
  rw [unit_reach, hmid] at hprev
  rw [unit_reach, hhigh] at hle
  rw [shortest, hsearch]
  refine ⟨htpos, htle.trans ?_, htvalue.trans_le (hle.trans_eq ?_)⟩
  · have hdigits : (c - 1 : ℚ) < 10 ^ 18 := by
      have hsteps : (10 : ℚ) ^ (k + 1) = 10 ^ (i + 1) * 10 ^ (k - i) := by
        rw [← zpow_natCast, ← zpow_add₀ hten]
        congr 1
        push_cast
        ring
      have hlast : (c - 1 : ℚ) < 10 ^ (i + 1) :=
        lt_of_mul_lt_mul_right ((hprev.trans_lt hceil).trans_eq hsteps) (by positivity)
      exact hlast.trans_le (pow_le_pow_right₀ (by norm_num) (by omega))
    have hlt : (c : ℚ) < (10 ^ 18 + 1 : ℕ) := by
      push_cast
      linarith
    exact Nat.lt_succ_iff.1 (by exact_mod_cast hlt)
  · rw [zpow_sub₀ two_ne_zero]
    norm_num
    ring

end FloatFormat

end ConceptGraph
