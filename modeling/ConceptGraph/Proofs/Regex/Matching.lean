/-
What regular expressions match, as a relation between positions, and that all ways are followed.

- `Expr.Matches`: an expression takes a text from one position to another. `Expr.Spans`: it takes it from the start to the
  end.
- `Tracks`: a function on sets of positions goes where a relation leads. So do `rounds` for a number of steps, and `spread`
  for any number up to a limit; without one, as many rounds as there are positions reach everything (`spread_closed`).
- `Expr.ends_tracks`: the sets of ends are those of the relation. `Expr.occursIn_iff`: what is searched for in a text is
  found if and only if some part of it is a match.
-/
import Mathlib.Tactic
import Mathlib.Data.Nat.Bitwise
import ConceptGraph.Regex.Expr

namespace ConceptGraph.Regex

/-! ## Matches -/

/-- `n` steps along `R` -/
def Steps (R : Nat → Nat → Prop) : Nat → Nat → Nat → Prop
  | 0, i, j => i = j
  | n + 1, i, j => ∃ k, R i k ∧ Steps R n k j

/-- how often something may be repeated: from `min` times to `max` times, and `min` times in any case -/
def Allowed (min : Nat) (max : Option Nat) (n : Nat) : Prop := min ≤ n ∧ ∀ m, max = some m → n ≤ min + (m - min)

/-- what the expression matches, from one position of the text to another -/
def Expr.Matches (text : Array Char) : Expr → Nat → Nat → Prop
  | .empty, i, j => i = j
  | .char c, i, j => text[i]? = some c ∧ j = i + 1
  | .set s, i, j => (∃ c, text[i]? = some c ∧ s.contains c) ∧ j = i + 1
  | .look l, i, j => l.holds text i ∧ i = j
  | .seq a b, i, j => ∃ k, a.Matches text i k ∧ b.Matches text k j
  | .alt a b, i, j => a.Matches text i j ∨ b.Matches text i j
  | .repeated e min max, i, j => ∃ n, Allowed min max n ∧ Steps (e.Matches text) n i j

/-- the whole text is a match -/
def Expr.Spans (e : Expr) (text : String) : Prop := e.Matches text.toList.toArray 0 text.toList.length

section Steps

variable {R : Nat → Nat → Prop} {i j k m n : Nat}

theorem Steps.append (h : Steps R m i k) (h' : Steps R n k j) : Steps R (m + n) i j := by
  induction m generalizing i with
  | zero => rwa [show i = k from h, Nat.zero_add]
  | succ m ih =>
    obtain ⟨l, hl, hrest⟩ := h
    rw [Nat.succ_add]
    exact ⟨l, hl, ih hrest⟩

theorem Steps.split (h : Steps R (m + n) i j) : ∃ k, Steps R m i k ∧ Steps R n k j := by
  induction m generalizing i with
  | zero => exact ⟨i, rfl, by rwa [Nat.zero_add] at h⟩
  | succ m ih =>
    rw [Nat.succ_add] at h
    obtain ⟨l, hl, hrest⟩ := h
    obtain ⟨k, hm, hn⟩ := ih hrest
    exact ⟨k, ⟨l, hl, hm⟩, hn⟩

end Steps

/-! ## Sets of positions -/

/-- no position is above `n` -/
def Within (n w : Nat) : Prop := ∀ i, w.testBit i → i ≤ n

/-- `f` goes where `R` leads, from the positions up to `n` -/
structure Tracks (n : Nat) (f : Nat → Nat) (R : Nat → Nat → Prop) : Prop where
  ends : ∀ w, Within n w → ∀ j, (f w).testBit j ↔ ∃ i, w.testBit i ∧ R i j
  within : ∀ w, Within n w → Within n (f w)

theorem testBit_positions (p : Nat → Bool) (n i : Nat) : (positions p n).testBit i ↔ i < n ∧ p i := by
  induction n with
  | zero => simp [positions]
  | succ n ih =>
    have hlast : (1 <<< n).testBit i = decide (i = n) := by
      rw [Nat.one_shiftLeft, Nat.testBit_two_pow, decide_eq_decide, eq_comm]
    unfold positions
    split
    · rename_i hp
      rw [Nat.testBit_or, Bool.or_eq_true, ih, hlast, decide_eq_true_eq, Nat.lt_succ_iff_lt_or_eq]
      constructor
      · rintro (⟨hlt, hpi⟩ | rfl)
        · exact ⟨Or.inl hlt, hpi⟩
        · exact ⟨Or.inr rfl, hp⟩
      · rintro ⟨hlt | rfl, hpi⟩
        · exact Or.inl ⟨hlt, hpi⟩
        · exact Or.inr rfl
    · rename_i hp
      rw [ih, Nat.lt_succ_iff_lt_or_eq]
      constructor
      · rintro ⟨hlt, hpi⟩
        exact ⟨Or.inl hlt, hpi⟩
      · rintro ⟨hlt | rfl, hpi⟩
        · exact ⟨hlt, hpi⟩
        · exact absurd hpi hp

theorem Within.or {n v w : Nat} (hv : Within n v) (hw : Within n w) : Within n (v ||| w) := by
  intro i hi
  rw [Nat.testBit_or, Bool.or_eq_true] at hi
  exact hi.elim (hv i) (hw i)

namespace Tracks

variable {n : Nat} {f g : Nat → Nat} {R S : Nat → Nat → Prop}

theorem comp (hf : Tracks n f R) (hg : Tracks n g S) : Tracks n (fun w => g (f w)) fun i j => ∃ k, R i k ∧ S k j where
  ends w hw j := by
    rw [hg.ends _ (hf.within w hw)]
    constructor
    · rintro ⟨k, hk, hkj⟩
      obtain ⟨i, hi, hik⟩ := (hf.ends w hw k).1 hk
      exact ⟨i, hi, k, hik, hkj⟩
    · rintro ⟨i, hi, k, hik, hkj⟩
      exact ⟨k, (hf.ends w hw k).2 ⟨i, hi, hik⟩, hkj⟩
  within w hw := hg.within _ (hf.within w hw)

theorem or (hf : Tracks n f R) (hg : Tracks n g S) : Tracks n (fun w => f w ||| g w) fun i j => R i j ∨ S i j where
  ends w hw j := by
    rw [Nat.testBit_or, Bool.or_eq_true, hf.ends w hw, hg.ends w hw]
    constructor
    · rintro (⟨i, hi, hij⟩ | ⟨i, hi, hij⟩)
      · exact ⟨i, hi, Or.inl hij⟩
      · exact ⟨i, hi, Or.inr hij⟩
    · rintro ⟨i, hi, hij | hij⟩
      · exact Or.inl ⟨i, hi, hij⟩
      · exact Or.inr ⟨i, hi, hij⟩
  within w hw := (hf.within w hw).or (hg.within w hw)

theorem stay : Tracks n (fun w => w) (fun i j => i = j) where
  ends w hw j := by simp
  within w hw := hw

theorem congr (hf : Tracks n f R) (h : ∀ i j, R i j ↔ S i j) : Tracks n f S where
  ends w hw j := by simp only [hf.ends w hw, h]
  within := hf.within

end Tracks

theorem consume_tracks (text : Array Char) (p : Char → Bool) :
    Tracks text.size (consume text p) fun i j => (∃ c, text[i]? = some c ∧ p c) ∧ j = i + 1 := by
  have hbit : ∀ w j, (consume text p w).testBit j ↔
      ∃ i, w.testBit i ∧ (i < text.size ∧ ∃ c, text[i]? = some c ∧ p c) ∧ j = i + 1 := by
    intro w j
    simp only [consume, Nat.testBit_shiftLeft, Nat.testBit_and, Bool.and_eq_true, decide_eq_true_eq, testBit_positions,
      Option.any_eq_true]
    constructor
    · rintro ⟨hj, hw, hp⟩
      exact ⟨j - 1, hw, hp, by omega⟩
    · rintro ⟨i, hw, hp, rfl⟩
      exact ⟨by omega, hw, hp⟩
  refine ⟨fun w hw j => ?_, fun w hw j hj => ?_⟩
  · rw [hbit]
    refine exists_congr fun i => and_congr_right fun _ => and_congr_left fun _ => and_iff_right_of_imp ?_
    rintro ⟨c, hc, -⟩
    exact (Array.getElem?_eq_some_iff.1 hc).1
  · obtain ⟨i, -, ⟨hi, -⟩, rfl⟩ := (hbit w j).1 hj
    exact hi

theorem look_tracks (text : Array Char) (l : Look) :
    Tracks text.size (fun w => w &&& positions (fun i => l.holds text i) (text.size + 1))
      fun i j => l.holds text i ∧ i = j := by
  have hbit : ∀ w j, (w &&& positions (fun i => l.holds text i) (text.size + 1)).testBit j ↔
      w.testBit j ∧ j < text.size + 1 ∧ l.holds text j := by
    intro w j
    rw [Nat.testBit_and, Bool.and_eq_true, testBit_positions]
  refine ⟨fun w hw j => ?_, fun w hw j hj => hw j ((hbit w j).1 hj).1⟩
  rw [hbit]
  constructor
  · rintro ⟨hj, -, hl⟩
    exact ⟨j, hj, hl, rfl⟩
  · rintro ⟨_, hj, hl, rfl⟩
    exact ⟨hj, Nat.lt_succ_of_le (hw _ hj), hl⟩

/-! ## Repetitions -/

section Repetition

variable {n k : Nat} {f : Nat → Nat} {R : Nat → Nat → Prop} {v w : Nat}

theorem rounds_of_fixed (h : f w = w) : rounds f k w = w := by
  cases k with
  | zero => rfl
  | succ k => simp only [rounds, if_pos h]

theorem rounds_succ : rounds f (k + 1) w = rounds f k (f w) := by
  by_cases h : f w = w
  · rw [rounds_of_fixed h, h, rounds_of_fixed h]
  · simp only [rounds, if_neg h]

theorem spread_of_fixed (h : w ||| f w = w) : spread f k w = w := by
  cases k with
  | zero => rfl
  | succ k => simp only [spread, if_pos h]

theorem spread_succ : spread f (k + 1) w = spread f k (w ||| f w) := by
  by_cases h : w ||| f w = w
  · rw [spread_of_fixed h, h, spread_of_fixed h]
  · simp only [spread, if_neg h]

theorem rounds_tracks (hf : Tracks n f R) : Tracks n (rounds f k) (Steps R k) := by
  induction k with
  | zero => exact .stay
  | succ k ih =>
    have heq : rounds f (k + 1) = fun w => rounds f k (f w) := funext fun w => rounds_succ
    rw [heq]
    exact hf.comp ih

theorem spread_tracks (hf : Tracks n f R) : Tracks n (spread f k) fun i j => ∃ m, m ≤ k ∧ Steps R m i j := by
  induction k with
  | zero =>
    refine Tracks.stay.congr fun i j => ⟨fun h => ⟨0, Nat.le_refl 0, h⟩, ?_⟩
    rintro ⟨m, hm, h⟩
    obtain rfl := Nat.le_zero.1 hm
    exact h
  | succ k ih =>
    have heq : spread f (k + 1) = fun w => spread f k (w ||| f w) := funext fun w => spread_succ
    rw [heq]
    refine ((Tracks.stay.or hf).comp ih).congr fun i j => ⟨?_, ?_⟩
    · rintro ⟨l, rfl | hl, m, hm, h⟩
      · exact ⟨m, Nat.le_succ_of_le hm, h⟩
      · exact ⟨m + 1, Nat.succ_le_succ hm, l, hl, h⟩
    · rintro ⟨m, hm, h⟩
      cases m with
      | zero => exact ⟨i, Or.inl rfl, 0, Nat.zero_le k, h⟩
      | succ m =>
        obtain ⟨l, hl, h⟩ := h
        exact ⟨l, Or.inr hl, m, Nat.le_of_succ_le_succ hm, h⟩

/-- the positions of a set up to `n` -/
def members (n w : Nat) : Finset Nat := (Finset.range (n + 1)).filter fun i => w.testBit i

theorem mem_members {i : Nat} (hw : Within n w) : i ∈ members n w ↔ w.testBit i := by
  rw [members, Finset.mem_filter, Finset.mem_range, Nat.lt_succ_iff]
  exact and_iff_right_of_imp (hw i)

theorem card_members_le : (members n w).card ≤ n + 1 := by
  refine (Finset.card_filter_le _ _).trans ?_
  rw [Finset.card_range]

/-- a round that changes something adds a position -/
theorem members_grown (hv : Within n v) (hw : Within n w) (hne : w ||| v ≠ w) :
    (members n w).card < (members n (w ||| v)).card := by
  refine Finset.card_lt_card (Finset.ssubset_iff_subset_ne.2 ⟨fun i hi => ?_, fun heq => hne ?_⟩)
  · rw [mem_members hw] at hi
    rw [mem_members (hw.or hv), Nat.testBit_or, hi, Bool.true_or]
  · refine Nat.eq_of_testBit_eq fun i => Bool.eq_iff_iff.2 ?_
    rw [← mem_members hw, ← mem_members (hw.or hv), heq]

/-- **Enough rounds** reach everything: then one more would add nothing. -/
theorem spread_closed (hf : Tracks n f R) (hw : Within n w) (hk : n + 1 ≤ k + (members n w).card) :
    spread f k w ||| f (spread f k w) = spread f k w := by
  induction k generalizing w with
  | zero =>
    by_contra hne
    have hlt := members_grown (hf.within w hw) hw hne
    have hle : (members n (w ||| f w)).card ≤ n + 1 := card_members_le
    omega
  | succ k ih =>
    by_cases hfix : w ||| f w = w
    · rw [spread_of_fixed hfix]
      exact hfix
    · rw [spread_succ]
      have hlt := members_grown (hf.within w hw) hw hfix
      exact ih (hw.or (hf.within w hw)) (by omega)

theorem spread_tracks_all (hf : Tracks n f R) : Tracks n (spread f (n + 1)) fun i j => ∃ m, Steps R m i j where
  ends w hw j := by
    have hspread := spread_tracks (k := n + 1) hf
    constructor
    · intro hj
      obtain ⟨i, hi, m, -, h⟩ := (hspread.ends w hw j).1 hj
      exact ⟨i, hi, m, h⟩
    · rintro ⟨i, hi, m, h⟩
      have hclosed := spread_closed hf hw (Nat.le_add_right (n + 1) _)
      have hin : (spread f (n + 1) w).testBit i := (hspread.ends w hw i).2 ⟨i, hi, 0, Nat.zero_le _, rfl⟩
      -- along the steps, nothing leaves what is closed
      clear hi
      induction m generalizing i with
      | zero => exact (show i = j from h) ▸ hin
      | succ m ih =>
        obtain ⟨k, hik, h⟩ := h
        refine ih k h ?_
        rw [← hclosed, Nat.testBit_or, Bool.or_eq_true]
        exact Or.inr ((hf.ends _ (hspread.within w hw) k).2 ⟨i, hin, hik⟩)
  within := (spread_tracks hf).within

end Repetition

/-! ## Expressions -/

/-- **All ways are followed**: the ends of an expression are where its matches end. -/
theorem Expr.ends_tracks (text : Array Char) (e : Expr) : Tracks text.size (e.ends text) (e.Matches text) := by
  induction e with
  | empty => exact .stay
  | char c =>
    refine (consume_tracks text (· == c)).congr fun i j => and_congr_left fun _ => ?_
    simp
  | set s => exact consume_tracks text s.contains
  | look l => exact look_tracks text l
  | seq a b iha ihb => exact iha.comp ihb
  | alt a b iha ihb => exact iha.or ihb
  | repeated e min max ih =>
    cases max with
    | none =>
      refine ((rounds_tracks ih).comp (spread_tracks_all ih)).congr fun i j => ⟨?_, ?_⟩
      · rintro ⟨k, hmin, m, hmore⟩
        exact ⟨min + m, ⟨Nat.le_add_right min m, nofun⟩, hmin.append hmore⟩
      · rintro ⟨n, ⟨hmin, -⟩, h⟩
        obtain ⟨m, rfl⟩ := Nat.exists_eq_add_of_le hmin
        obtain ⟨k, hk, hmore⟩ := h.split
        exact ⟨k, hk, m, hmore⟩
    | some max =>
      refine ((rounds_tracks ih).comp (spread_tracks ih)).congr fun i j => ⟨?_, ?_⟩
      · rintro ⟨k, hmin, m, hm, hmore⟩
        refine ⟨min + m, ⟨Nat.le_add_right min m, ?_⟩, hmin.append hmore⟩
        rintro _ ⟨⟩
        exact Nat.add_le_add_left hm min
      · rintro ⟨n, ⟨hmin, hmax⟩, h⟩
        obtain ⟨m, rfl⟩ := Nat.exists_eq_add_of_le hmin
        obtain ⟨k, hk, hmore⟩ := h.split
        exact ⟨k, hk, m, Nat.le_of_add_le_add_left (hmax max rfl), hmore⟩

/-- **To be found in a text** is to match some part of it. -/
theorem Expr.occursIn_iff {e : Expr} {text : String} :
    e.occursIn text ↔ ∃ i j, i ≤ text.toList.length ∧ e.Matches text.toList.toArray i j := by
  have hall : ∀ i, (1 <<< (text.toList.toArray.size + 1) - 1).testBit i ↔ i ≤ text.toList.length := by
    intro i
    rw [Nat.one_shiftLeft, Nat.testBit_two_pow_sub_one, decide_eq_true_eq, Nat.lt_succ_iff, List.size_toArray]
  have hends := (e.ends_tracks text.toList.toArray).ends _ fun i hi => (hall i).1 hi
  rw [occursIn, bne_iff_ne]
  constructor
  · intro hne
    obtain ⟨j, hj⟩ := Nat.exists_testBit_of_ne_zero hne
    obtain ⟨i, hi, hij⟩ := (hends j).1 hj
    exact ⟨i, j, (hall i).1 hi, hij⟩
  · rintro ⟨i, j, hi, hij⟩ hzero
    have hj := (hends j).2 ⟨i, (hall i).2 hi, hij⟩
    rw [hzero, Nat.zero_testBit] at hj
    cases hj

end ConceptGraph.Regex
