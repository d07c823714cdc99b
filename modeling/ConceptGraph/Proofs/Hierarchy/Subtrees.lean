/-
Moves of subtrees: which of them are refused, and what they change.

- `reparent_unknownNode_iff`, `reparent_root_iff`, `reparent_cycle_iff`, `reparent_done_iff`: what comes of a move, by
  the nodes that it is about. The search for a cycle goes upwards and stops where it has been before.
- `Transplanted`: what a forest is like after `n` has been moved under `p`, with all that is below it.
- `supertypes_transplanted`, `supertypes_elsewhere`: what is above a node afterwards, below `n` and elsewhere.
  `subtypes_transplanted`: what is below `n` comes along as it is.
- `moves_exact`: all of it, for whatever forest edits lead to.
-/
import ConceptGraph.Proofs.Hierarchy.Walks

namespace ConceptGraph.Hierarchy

open Std

variable {κ : Type} [Ord κ] [TransOrd κ] [DecidableEq κ] {h h' : Hierarchy κ} {n p x : κ} {k : Nat} {old : Option κ}

/-! ## Refused -/

theorem reparent_error_iff {e : HierarchyError κ} : h.reparent n p = .error e ↔ h.reparentFault n p = some e := by
  unfold reparent
  cases h.reparentFault n p with
  | some fault => simp
  | none =>
    simp only [reduceCtorEq, iff_false]
    split <;> simp

theorem reparent_unknownNode_iff {m : κ} : h.reparent n p = .error (.unknownNode m) ↔
    (¬ h.contains n ∧ m = n) ∨ (h.contains n ∧ ¬ h.contains p ∧ m = p) := by
  rw [reparent_error_iff, reparentFault]
  by_cases hn : h.contains n
  · by_cases hp : h.contains p
    · by_cases hr : h.isRoot n <;> by_cases hs : h.isSubtypeOf p n <;> simp [hn, hp, hr, hs]
    · simp [hn, hp, @eq_comm _ m]
  · simp [hn, @eq_comm _ m]

theorem reparent_root_iff {m : κ} : h.reparent n p = .error (.root m) ↔
    h.contains n ∧ h.contains p ∧ h.isRoot n ∧ m = n := by
  rw [reparent_error_iff, reparentFault]
  by_cases hn : h.contains n
  · by_cases hp : h.contains p
    · by_cases hr : h.isRoot n <;> by_cases hs : h.isSubtypeOf p n <;> simp [hn, hp, hr, hs, @eq_comm _ m]
    · simp [hn, hp]
  · simp [hn]

variable [LawfulEqOrd κ]

/-- the search for a cycle finds every one -/
theorem isSubtypeOf_iff_ancestor? (hf : h.Forest) (hn : h.contains n) :
    h.isSubtypeOf n x ↔ ∃ k, h.ancestor? k n = some x := by
  rw [isSubtypeOf_iff, mem_supertypes hf, and_iff_right hn]

theorem reparent_cycle_iff (hf : h.Forest) {m q : κ} : h.reparent n p = .error (.cycle m q) ↔
    h.contains n ∧ h.contains p ∧ ¬ h.isRoot n ∧ (∃ k, h.ancestor? k p = some n) ∧ m = n ∧ q = p := by
  rw [reparent_error_iff, reparentFault]
  by_cases hn : h.contains n
  · by_cases hp : h.contains p
    · rw [← isSubtypeOf_iff_ancestor? hf hp]
      by_cases hr : h.isRoot n <;> by_cases hs : h.isSubtypeOf p n <;> simp [hn, hp, hr, hs, eq_comm]
    · simp [hn, hp]
  · simp [hn]

theorem reparent_done_iff (hf : h.Forest) : (∃ r, h.reparent n p = .ok r) ↔
    h.contains n ∧ h.contains p ∧ ¬ h.isRoot n ∧ ∀ k, h.ancestor? k p ≠ some n := by
  have hdone : (∃ r, h.reparent n p = .ok r) ↔ h.reparentFault n p = none := by
    constructor
    · rintro ⟨⟨old, h'⟩, hr⟩
      exact (reparent_eq_ok.1 hr).1
    · exact fun hfault => ⟨_, reparent_eq_ok.2 ⟨hfault, rfl, rfl⟩⟩
  rw [hdone, reparentFault_eq_none]
  refine and_congr_right fun _ => and_congr_right fun hp => and_congr_right fun _ => ?_
  rw [isSubtypeOf_iff_ancestor? hf hp, not_exists]

/-! ## Done -/

/-- `h'` is `h` with `n`, and all that is below it, under `p` -/
structure Transplanted (h h' : Hierarchy κ) (n p : κ) : Prop where
  nodes : ∀ x, h'.contains x ↔ h.contains x
  parent : ∀ x, h'.parent? x = if x = n then some p else h.parent? x
  /-- from below `n` the way up to `n` is what it was, and then goes on from `p` -/
  moved : ∀ x ∈ h.subtypes n, h'.supertypes x = (h.supertypes x).takeWhile (· != n) ++ n :: h.supertypes p
  elsewhere : ∀ x, x ∉ h.subtypes n → h'.supertypes x = h.supertypes x
  /-- what is below `n` comes along in the same order -/
  below : h'.subtypes n = h.subtypes n
  last : h.parent? n ≠ some p → h'.children p = h.children p ++ [n]
  children : ∀ x, x ≠ p → h'.children x = (h.children x).filter (· != n)
  stays : h.parent? n = some p → h' = h

omit [LawfulEqOrd κ] in
theorem size_reparent (hm : h.reparent n p = .ok (old, h')) : h'.size = h.size := by
  obtain ⟨-, -, rfl⟩ := reparent_eq_ok.1 hm
  split
  · rfl
  · simp only [moved, attach, detach, changeChildren, size, ExtTreeMap.size_modify]
    split <;> simp only [ExtTreeMap.size_modify]

section Reparent

variable (hm : h.reparent n p = .ok (old, h')) (hf : h.Forest)

include hm hf

theorem children_reparent (hx : x ≠ p) : h'.children x = (h.children x).filter (· != n) := by
  by_cases hq : h.parent? n = some p
  · -- the node stays where it is, and is no child of `x`
    obtain ⟨-, -, rfl⟩ := reparent_eq_ok.1 hm
    rw [if_pos hq, eq_comm, List.filter_eq_self]
    intro c hc
    have hcn : c ≠ n := fun he => hx (Option.some.inj (((hf.child_iff c x).1 hc).symm.trans (he ▸ hq)))
    simpa using hcn
  · rw [children_moved hm hf hq, if_neg hx]

/-- **Above what is below `n`** -/
theorem supertypes_transplanted (hx : n ∈ h.supertypes x) :
    h'.supertypes x = (h.supertypes x).takeWhile (· != n) ++ n :: h.supertypes p := by
  have hf' := reparent_forest hm hf
  induction x using hf.parent_induction with
  | _ x ih =>
    have hcx := (contains_of_mem_supertypes hf hx).1
    rw [supertypes_eq hf hcx]
    by_cases hxn : x = n
    · rw [hxn, supertypes_reparent_self hm hf, List.takeWhile_cons_of_neg (by simp), List.nil_append]
    · obtain ⟨he, -⟩ | ⟨q, hq, hnq⟩ := (mem_supertypes_iff hf).1 hx
      · exact absurd he.symm hxn
      rw [supertypes_eq hf' ((contains_reparent hm x).2 hcx), parent?_reparent hm, if_neg hxn, hq, Option.elim_some,
        Option.elim_some, ih q hq hnq, List.takeWhile_cons_of_pos (by simpa using hxn), List.cons_append]

/-- **Above all other nodes** nothing changes. -/
theorem supertypes_elsewhere (hx : n ∉ h.supertypes x) : h'.supertypes x = h.supertypes x := by
  by_cases hcx : h.contains x
  · refine supertypes_congr hf (reparent_forest hm hf) hcx fun a ha => ⟨?_, ?_⟩
    · exact (contains_reparent hm a).2 (contains_of_mem_supertypes hf ha).2
    · rw [parent?_reparent hm, if_neg]
      rintro rfl
      exact hx ha
  · rw [supertypes_of_not_contains hcx, supertypes_of_not_contains fun hc => hcx ((contains_reparent hm x).1 hc)]

/-- no node below `n`, nor `n` itself, loses or gets a child -/
theorem children_below (hx : n ∈ h.supertypes x) : h'.children x = h.children x := by
  have hxp : x ≠ p := by
    rintro rfl
    exact not_above_new_parent hm hx
  rw [children_reparent hm hf hxp, List.filter_eq_self]
  intro c hc
  have hcn : c ≠ n := by
    rintro rfl
    -- a node that is above its own parent would be above itself
    obtain ⟨-, k, hk⟩ := (mem_supertypes hf).1 hx
    refine ancestor?_ne_self hf k c ?_
    rw [ancestor?, (hf.child_iff c x).1 hc, Option.bind_some, hk]
  simpa using hcn

theorem generations_transplanted (fuel : Nat) {level : List κ} (hl : ∀ a ∈ level, n ∈ h.supertypes a) :
    h'.generations fuel level = h.generations fuel level := by
  induction fuel generalizing level with
  | zero => rfl
  | succ fuel ih =>
    have hsame : level.flatMap h'.children = level.flatMap h.children :=
      List.flatMap_congr fun a ha => children_below hm hf (hl a ha)
    rw [generations_succ, generations_succ, hsame, ih]
    intro b hb
    obtain ⟨a, ha, hba⟩ := List.mem_flatMap.1 hb
    exact (mem_supertypes_iff hf).2 (Or.inr ⟨a, (hf.child_iff b a).1 hba, hl a ha⟩)

/-- **Below `n`** all stays as it is, the order included. -/
theorem subtypes_transplanted : h'.subtypes n = h.subtypes n := by
  obtain ⟨hfault, -, -⟩ := reparent_eq_ok.1 hm
  have hn := (reparentFault_eq_none.1 hfault).1
  rw [subtypes, subtypes, if_pos hn, if_pos ((contains_reparent hm n).2 hn), size_reparent hm]
  refine generations_transplanted hm hf _ fun a ha => ?_
  rw [List.mem_singleton.1 ha]
  exact self_mem_supertypes hf hn

theorem reparent_transplanted : h.Transplanted h' n p where
  nodes := contains_reparent hm
  parent := parent?_reparent hm
  moved x hx := supertypes_transplanted hm hf ((mem_subtypes hf).1 hx)
  elsewhere x hx := supertypes_elsewhere hm hf fun ha => hx ((mem_subtypes hf).2 ha)
  below := subtypes_transplanted hm hf
  last hp := by rw [children_moved hm hf hp, if_pos rfl]
  children _ hx := children_reparent hm hf hx
  stays hp := by
    obtain ⟨-, -, rfl⟩ := reparent_eq_ok.1 hm
    rw [if_pos hp]

end Reparent

/-! ## Both -/

/-- what comes of a move of `n` under `p` -/
structure Moved (h : Hierarchy κ) (n p : κ) : Prop where
  unknown : ∀ m, h.reparent n p = .error (.unknownNode m) ↔
    (¬ h.contains n ∧ m = n) ∨ (h.contains n ∧ ¬ h.contains p ∧ m = p)
  root : ∀ m, h.reparent n p = .error (.root m) ↔ h.contains n ∧ h.contains p ∧ h.isRoot n ∧ m = n
  /-- `p` is `n` itself or below it -/
  cycle : ∀ m q, h.reparent n p = .error (.cycle m q) ↔
    h.contains n ∧ h.contains p ∧ ¬ h.isRoot n ∧ (∃ k, h.ancestor? k p = some n) ∧ m = n ∧ q = p
  /-- the search for a cycle goes up from `p`, and stops where it has been before -/
  search : ∃ met, Walks h.climb? (h.start? p, []) met ∧ (n ∈ met ↔ h.contains p ∧ ∃ k, h.ancestor? k p = some n)
  refused : ∀ e, h.reparent n p = .error e → h.change (.reparent n p) = h
  succeeds : (∃ r, h.reparent n p = .ok r) ↔
    h.contains n ∧ h.contains p ∧ ¬ h.isRoot n ∧ ∀ k, h.ancestor? k p ≠ some n
  done : ∀ old h', h.reparent n p = .ok (old, h') →
    old = h.parent? n ∧ h.change (.reparent n p) = h' ∧ h.Transplanted h' n p

theorem Forest.moved (hf : h.Forest) (n p : κ) : h.Moved n p where
  unknown _ := reparent_unknownNode_iff
  root _ := reparent_root_iff
  cycle _ _ := reparent_cycle_iff hf
  search := ⟨h.supertypes p, walks_supertypes hf p, mem_supertypes hf⟩
  refused e he := by rw [change, he]; rfl
  succeeds := reparent_done_iff hf
  done old h' hm := ⟨(reparent_eq_ok.1 hm).2.1, by rw [change, hm]; rfl, reparent_transplanted hm hf⟩

/-- **Moves** carry subtrees along and nothing else, and are refused for a cycle only where there would be one, in
whatever forest edits lead to, done or refused. -/
theorem moves_exact (cs : List (Change κ)) (n p : κ) : (empty.run cs).Moved n p :=
  (run_forest empty_forest cs).moved n p

/-- a subtree of three goes from one tree to another, and not below one of its own nodes -/
theorem grove_moved : ((empty.run grove).Moved 4 6 ∧ (empty.run grove).Moved 4 2) ∧
    ((empty.run grove).reparent 4 6).map (fun r => (r.1, r.2.supertypes 2, r.2.subtypes 4, r.2.children 0)) =
      .ok (some 0, [2, 4, 6], [4, 5, 2], [1]) ∧
    ((empty.run grove).reparent 4 2).map Prod.fst = .error (.cycle 4 2) :=
  ⟨⟨moves_exact grove 4 6, moves_exact grove 4 2⟩, by decide +kernel, by decide +kernel⟩

end ConceptGraph.Hierarchy
