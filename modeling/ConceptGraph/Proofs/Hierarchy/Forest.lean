/-
Forests are forests: both sides of an edge agree, no node is above itself, and the bound of the walks cuts nothing off.

- `Forest`: what every hierarchy keeps. `insert_forest`, `reparent_forest` and `remove_forest` carry it through edits.
- `supertypes_eq`: the walk upwards is the node followed by the walk from its parent.
- `mem_subtypes`, `nodup_subtypes`: a node is on the walk down from another one exactly if that one is on its walk up,
  and then once.
- `parent?_insert`, `parent?_reparent`, `parent?_remove`: an edit gives one node another parent and no other node.
-/
import ConceptGraph.Hierarchy
import ConceptGraph.Proofs.Core.Collections

namespace ConceptGraph.Hierarchy

open Std

variable {κ : Type} [Ord κ] [TransOrd κ]

/-- the `k`-th node above -/
def ancestor? (h : Hierarchy κ) : Nat → κ → Option κ
  | 0, n => some n
  | k + 1, n => (h.parent? n).bind (h.ancestor? k)

/-- parents and children are two sides of the same edges, and upwards every walk comes to an end -/
structure Forest (h : Hierarchy κ) : Prop where
  parent_mem : ∀ n p, h.parent? n = some p → h.contains p
  child_iff : ∀ n p, n ∈ h.children p ↔ h.parent? n = some p
  nodup : ∀ p, (h.children p).Nodup
  ranked : ∃ rank : κ → Nat, ∀ n p, h.parent? n = some p → rank p < rank n

/-! ## Nodes -/

theorem contains_of_parent {h : Hierarchy κ} {n p : κ} (hp : h.parent? n = some p) : h.contains n := by
  unfold parent? at hp
  obtain ⟨d, hd, -⟩ := Option.bind_eq_some_iff.1 hp
  exact ExtTreeMap.contains_eq_isSome_getElem?.trans (by simp [hd])

theorem parent?_of_not_contains {h : Hierarchy κ} {n : κ} (hn : ¬ h.contains n) : h.parent? n = none := by
  cases hp : h.parent? n with
  | none => rfl
  | some p => exact absurd (contains_of_parent hp) hn

theorem not_mem_children {h : Hierarchy κ} (hf : h.Forest) {n : κ} (hn : ¬ h.contains n) (p : κ) : n ∉ h.children p := by
  rw [hf.child_iff, parent?_of_not_contains hn]
  simp

/-- what is put under a node is listed last, once -/
theorem nodup_attached {h : Hierarchy κ} (hf : h.Forest) {n p : κ} (hn : n ∉ h.children p) :
    (h.children p ++ [n]).Nodup := by
  rw [← List.concat_eq_append]
  exact .concat hn (hf.nodup p)

/-! ## Walks -/

theorem supertypes_of_not_contains {h : Hierarchy κ} {n : κ} (hn : ¬ h.contains n) : h.supertypes n = [] := if_neg hn

theorem ancestor?_succ (h : Hierarchy κ) (k : Nat) (n : κ) :
    h.ancestor? (k + 1) n = (h.ancestor? k n).bind h.parent? := by
  induction k generalizing n with
  | zero => simp [ancestor?]
  | succ k ih =>
    rw [ancestor?]
    cases hp : h.parent? n with
    | none => simp [ancestor?, hp]
    | some p => simpa [ancestor?, hp] using ih p

theorem mem_chain {h : Hierarchy κ} {fuel : Nat} {n a : κ} :
    a ∈ h.chain fuel n ↔ ∃ k, k < fuel ∧ h.ancestor? k n = some a := by
  induction fuel generalizing n with
  | zero => simp [chain]
  | succ fuel ih =>
    rw [chain, List.mem_cons]
    constructor
    · intro hcase
      rcases hcase with rfl | ha
      · exact ⟨0, Nat.succ_pos _, rfl⟩
      · cases hp : h.parent? n with
        | none => simp [hp] at ha
        | some p =>
          rw [hp] at ha
          obtain ⟨k, hk, hka⟩ := ih.1 ha
          exact ⟨k + 1, Nat.succ_lt_succ hk, by simp [ancestor?, hp, hka]⟩
    · rintro ⟨k, hk, hka⟩
      cases k with
      | zero => exact Or.inl (Option.some.inj hka).symm
      | succ k =>
        rw [ancestor?] at hka
        obtain ⟨p, hp, hpa⟩ := Option.bind_eq_some_iff.1 hka
        rw [hp]
        exact Or.inr (ih.2 ⟨k, Nat.lt_of_succ_lt_succ hk, hpa⟩)

theorem mem_generations {h : Hierarchy κ} (hf : h.Forest) {fuel : Nat} {level : List κ} {n : κ} :
    n ∈ h.generations fuel level ↔ ∃ k, k < fuel ∧ ∃ a ∈ level, h.ancestor? k n = some a := by
  induction fuel generalizing level with
  | zero => simp [generations]
  | succ fuel ih =>
    rw [generations]
    split
    · rename_i hl
      simp [List.isEmpty_iff.1 hl]
    · rw [List.mem_append, ih]
      constructor
      · intro hcase
        rcases hcase with hn | ⟨k, hk, b, hb, hkb⟩
        · exact ⟨0, Nat.succ_pos _, n, hn, rfl⟩
        · obtain ⟨a, ha, hba⟩ := List.mem_flatMap.1 hb
          refine ⟨k + 1, Nat.succ_lt_succ hk, a, ha, ?_⟩
          rw [ancestor?_succ, hkb]
          exact (hf.child_iff b a).1 hba
      · rintro ⟨k, hk, a, ha, hka⟩
        cases k with
        | zero => exact Or.inl ((Option.some.inj hka) ▸ ha)
        | succ k =>
          rw [ancestor?_succ] at hka
          obtain ⟨b, hb, hba⟩ := Option.bind_eq_some_iff.1 hka
          exact Or.inr ⟨k, Nat.lt_of_succ_lt_succ hk, b, List.mem_flatMap.2 ⟨a, ha, (hf.child_iff b a).2 hba⟩, hb⟩

theorem ancestor?_contains {h : Hierarchy κ} (hf : h.Forest) {k : Nat} {n a : κ} (ha : h.ancestor? k n = some a) :
    h.contains n ↔ h.contains a := by
  induction k generalizing n with
  | zero => rw [Option.some.inj ha]
  | succ k ih =>
    rw [ancestor?] at ha
    obtain ⟨p, hp, hpa⟩ := Option.bind_eq_some_iff.1 ha
    rw [← ih hpa]
    exact ⟨fun _ => hf.parent_mem n p hp, fun _ => contains_of_parent hp⟩

theorem mem_subtypes {h : Hierarchy κ} (hf : h.Forest) {n a : κ} : n ∈ h.subtypes a ↔ a ∈ h.supertypes n := by
  have key : n ∈ h.generations h.size [a] ↔ a ∈ h.chain h.size n := by
    rw [mem_generations hf, mem_chain]
    simp
  unfold subtypes supertypes
  constructor
  · intro hn
    split at hn
    · rename_i hc
      obtain ⟨k, -, hka⟩ := mem_chain.1 (key.1 hn)
      rw [if_pos ((ancestor?_contains hf hka).2 hc)]
      exact key.1 hn
    · simp at hn
  · intro ha
    split at ha
    · rename_i hc
      obtain ⟨k, -, hka⟩ := mem_chain.1 ha
      rw [if_pos ((ancestor?_contains hf hka).1 hc)]
      exact key.2 ha
    · simp at ha

/-! ## The bound of the walks -/

/-- a walk that is shorter than its bound has come to an end -/
theorem chain_succ_of_length {h : Hierarchy κ} {fuel : Nat} {n : κ} (hl : (h.chain (fuel + 1) n).length ≤ fuel) :
    h.chain (fuel + 1) n = h.chain fuel n := by
  induction fuel generalizing n with
  | zero => simp [chain] at hl
  | succ fuel ih =>
    rw [chain, chain]
    cases hp : h.parent? n with
    | none => simp
    | some p =>
      rw [chain, hp] at hl
      exact congrArg (n :: ·) (ih (by simpa using hl))

theorem chain_nodup {h : Hierarchy κ} (hf : h.Forest) (fuel : Nat) (n : κ) : (h.chain fuel n).Nodup := by
  obtain ⟨rank, hr⟩ := hf.ranked
  have above : ∀ fuel n a, a ∈ h.chain fuel n → rank a ≤ rank n := by
    intro fuel
    induction fuel with
    | zero => simp [chain]
    | succ fuel ih =>
      intro n a ha
      rw [chain, List.mem_cons] at ha
      rcases ha with rfl | ha
      · exact Nat.le_refl _
      · cases hp : h.parent? n with
        | none => simp [hp] at ha
        | some p =>
          rw [hp] at ha
          exact Nat.le_trans (ih p a ha) (Nat.le_of_lt (hr n p hp))
  induction fuel generalizing n with
  | zero => simp [chain]
  | succ fuel ih =>
    rw [chain, List.nodup_cons]
    cases hp : h.parent? n with
    | none => simp
    | some p => exact ⟨fun hn => absurd (above fuel p n hn) (by have := hr n p hp; omega), ih p⟩

/-! ## The walk downwards -/

/-- no node is above itself -/
theorem ancestor?_ne_self {h : Hierarchy κ} (hf : h.Forest) (k : Nat) (n : κ) : h.ancestor? (k + 1) n ≠ some n := by
  obtain ⟨rank, hr⟩ := hf.ranked
  have below : ∀ k n a, h.ancestor? (k + 1) n = some a → rank a < rank n := by
    intro k
    induction k with
    | zero =>
      intro n a ha
      rw [ancestor?_succ] at ha
      exact hr n a ha
    | succ k ih =>
      intro n a ha
      rw [ancestor?_succ] at ha
      obtain ⟨p, hp, hpa⟩ := Option.bind_eq_some_iff.1 ha
      exact Nat.lt_trans (hr p a hpa) (ih n p hp)
  exact fun ha => Nat.lt_irrefl _ (below k n n ha)

/-- nodes of which none is above another one have no child in common, and no child of one is above a child of another -/
theorem generations_nodup {h : Hierarchy κ} (hf : h.Forest) (fuel : Nat) {level : List κ} (hl : level.Nodup)
    (hapart : ∀ a ∈ level, ∀ b ∈ level, ∀ k, h.ancestor? (k + 1) a ≠ some b) : (h.generations fuel level).Nodup := by
  induction fuel generalizing level with
  | zero => simp [generations]
  | succ fuel ih =>
    rw [generations]
    split
    · exact List.nodup_nil
    · have hchildren : (level.flatMap h.children).Nodup := by
        refine List.nodup_flatMap.2 ⟨fun a _ => hf.nodup a, hl.imp fun {a b} hne => ?_⟩
        intro n hna hnb
        exact hne (Option.some.inj (((hf.child_iff n a).1 hna).symm.trans ((hf.child_iff n b).1 hnb)))
      refine List.nodup_append.2 ⟨hl, ih hchildren ?_, ?_⟩
      · intro a' ha' b' hb' k hk
        obtain ⟨a, ha, hca⟩ := List.mem_flatMap.1 ha'
        obtain ⟨b, hb, hcb⟩ := List.mem_flatMap.1 hb'
        -- what is between the two children is one step below what is between their parents
        rw [ancestor?, (hf.child_iff a' a).1 hca, Option.bind_some] at hk
        refine hapart a ha b hb k ?_
        rw [ancestor?_succ, hk, Option.bind_some, (hf.child_iff b' b).1 hcb]
      · rintro n hn m hm rfl
        obtain ⟨k, -, a', ha', hka⟩ := (mem_generations hf).1 hm
        obtain ⟨a, ha, hca⟩ := List.mem_flatMap.1 ha'
        refine hapart n hn a ha k ?_
        rw [ancestor?_succ, hka, Option.bind_some, (hf.child_iff a' a).1 hca]

/-- **The walk downwards** meets each node once. -/
theorem nodup_subtypes {h : Hierarchy κ} (hf : h.Forest) (n : κ) : (h.subtypes n).Nodup := by
  unfold subtypes
  split
  · refine generations_nodup hf _ (List.nodup_singleton n) fun a ha b hb k => ?_
    rw [List.mem_singleton] at ha hb
    rw [ha, hb]
    exact ancestor?_ne_self hf k n
  · exact List.nodup_nil

/-! ## The bound and the walk upwards -/

variable [LawfulEqOrd κ]

theorem chain_length_le_size {h : Hierarchy κ} (hf : h.Forest) {fuel : Nat} {n : κ} (hn : h.contains n) :
    (h.chain fuel n).length ≤ h.size := by
  have hsub : h.chain fuel n ⊆ h.nodes.keys := by
    intro a ha
    obtain ⟨k, -, hka⟩ := mem_chain.1 ha
    exact ExtTreeMap.mem_keys.2 ((ancestor?_contains hf hka).1 hn)
  have := ((chain_nodup hf fuel n).subperm hsub).length_le
  rwa [ExtTreeMap.length_keys] at this

/-- **The walk upwards.** The node, and then what the walk from its parent finds. -/
theorem supertypes_eq {h : Hierarchy κ} (hf : h.Forest) {n : κ} (hn : h.contains n) :
    h.supertypes n = n :: (h.parent? n).elim [] h.supertypes := by
  have hc : h.chain h.size n = h.chain (h.size + 1) n :=
    (chain_succ_of_length (chain_length_le_size hf hn)).symm
  rw [supertypes, if_pos hn, hc, chain]
  cases hp : h.parent? n with
  | none => rfl
  | some p => exact congrArg (n :: ·) (if_pos (hf.parent_mem n p hp)).symm

theorem self_mem_supertypes {h : Hierarchy κ} (hf : h.Forest) {n : κ} (hn : h.contains n) : n ∈ h.supertypes n := by
  rw [supertypes_eq hf hn]
  exact List.mem_cons_self

omit [LawfulEqOrd κ] in
theorem contains_of_mem_supertypes {h : Hierarchy κ} (hf : h.Forest) {n a : κ} (ha : a ∈ h.supertypes n) :
    h.contains n ∧ h.contains a := by
  by_cases hn : h.contains n
  · rw [supertypes, if_pos hn] at ha
    obtain ⟨k, -, hka⟩ := mem_chain.1 ha
    exact ⟨hn, (ancestor?_contains hf hka).1 hn⟩
  · simp [supertypes_of_not_contains hn] at ha

/-- what is above a node other than the node itself is above its parent -/
theorem mem_supertypes_iff {h : Hierarchy κ} (hf : h.Forest) {n a : κ} :
    a ∈ h.supertypes n ↔ (a = n ∧ h.contains n) ∨ ∃ p, h.parent? n = some p ∧ a ∈ h.supertypes p := by
  by_cases hn : h.contains n
  · rw [supertypes_eq hf hn, List.mem_cons]
    cases hp : h.parent? n with
    | none => simp [hn]
    | some p => simp [hn]
  · simp [supertypes_of_not_contains hn, parent?_of_not_contains hn, hn]

/-- two forests in which the nodes above `n` have the same parents have the same walk from `n` -/
theorem supertypes_congr {h h' : Hierarchy κ} (hf : h.Forest) (hf' : h'.Forest) {n : κ} (hn : h.contains n)
    (hp : ∀ a ∈ h.supertypes n, h'.contains a ∧ h'.parent? a = h.parent? a) : h'.supertypes n = h.supertypes n := by
  obtain ⟨rank, hr⟩ := hf.ranked
  induction hk : rank n using Nat.strong_induction_on generalizing n with
  | _ k ih =>
    have hself := hp n (self_mem_supertypes hf hn)
    rw [supertypes_eq hf hn, supertypes_eq hf' hself.1, hself.2]
    cases hq : h.parent? n with
    | none => rfl
    | some q =>
      refine congrArg (n :: ·) (ih (rank q) (by have := hr n q hq; omega) (hf.parent_mem n q hq) ?_ rfl)
      intro a ha
      exact hp a ((mem_supertypes_iff hf).2 (Or.inr ⟨q, hq, ha⟩))

/-! ## Edits -/

variable [DecidableEq κ]

@[simp] theorem parent?_changeChildren (h : Hierarchy κ) (n m : κ) (f : List κ → List κ) :
    (h.changeChildren n f).parent? m = h.parent? m := by
  simp only [parent?, changeChildren, lookup_modify]
  split
  · cases h.nodes[m]? <;> rfl
  · rfl

omit [LawfulEqOrd κ] [DecidableEq κ] in
@[simp] theorem contains_changeChildren (h : Hierarchy κ) (n m : κ) (f : List κ → List κ) :
    (h.changeChildren n f).contains m = h.contains m := ExtTreeMap.contains_modify

theorem children_changeChildren (h : Hierarchy κ) {n : κ} (hn : h.contains n) (m : κ) (f : List κ → List κ) :
    (h.changeChildren n f).children m = if m = n then f (h.children n) else h.children m := by
  obtain ⟨d, hd⟩ := contains_iff.1 hn
  simp only [children, changeChildren, lookup_modify]
  split
  · rename_i he
    simp [he, hd]
  · rfl

theorem parent?_set (h : Hierarchy κ) (n m : κ) (d : Node κ) :
    (⟨h.nodes.insert n d⟩ : Hierarchy κ).parent? m = if m = n then d.parent else h.parent? m := by
  simp only [parent?, lookup_insert]
  split <;> rfl

theorem children_set (h : Hierarchy κ) (n m : κ) (d : Node κ) :
    (⟨h.nodes.insert n d⟩ : Hierarchy κ).children m = if m = n then d.children else h.children m := by
  simp only [children, lookup_insert]
  split <;> rfl

theorem contains_set (h : Hierarchy κ) (n m : κ) (d : Node κ) :
    (⟨h.nodes.insert n d⟩ : Hierarchy κ).contains m ↔ m = n ∨ h.contains m := by
  simp only [contains, contains_iff, lookup_insert]
  by_cases hm : m = n <;> simp [hm]

theorem parent?_erase (h : Hierarchy κ) (n m : κ) :
    (⟨h.nodes.erase n⟩ : Hierarchy κ).parent? m = if m = n then none else h.parent? m := by
  simp only [parent?, lookup_erase]
  split <;> rfl

theorem children_erase (h : Hierarchy κ) (n m : κ) :
    (⟨h.nodes.erase n⟩ : Hierarchy κ).children m = if m = n then [] else h.children m := by
  simp only [children, lookup_erase]
  split <;> rfl

theorem contains_erase (h : Hierarchy κ) (n m : κ) :
    (⟨h.nodes.erase n⟩ : Hierarchy κ).contains m ↔ m ≠ n ∧ h.contains m := by
  simp only [contains, contains_iff, lookup_erase]
  by_cases hm : m = n <;> simp [hm]

theorem parent?_setParent (h : Hierarchy κ) {n : κ} (hn : h.contains n) (p m : κ) :
    (⟨h.nodes.modify n fun d => { d with parent := some p }⟩ : Hierarchy κ).parent? m =
      if m = n then some p else h.parent? m := by
  obtain ⟨d, hd⟩ := contains_iff.1 hn
  simp only [parent?, lookup_modify]
  split
  · rename_i he
    simp [he, hd]
  · rfl

theorem children_setParent (h : Hierarchy κ) (n p m : κ) :
    (⟨h.nodes.modify n fun d => { d with parent := some p }⟩ : Hierarchy κ).children m = h.children m := by
  simp only [children, lookup_modify]
  split
  · cases h.nodes[m]? <;> rfl
  · rfl

/-! ### A new leaf -/

omit [LawfulEqOrd κ] [DecidableEq κ] in
theorem insert_eq_ok {h h' : Hierarchy κ} {n p : κ} : h.insert n p = .ok h' ↔
    ¬ h.contains n ∧ h.contains p ∧ h' = ⟨(h.attach n p).nodes.insert n ⟨some p, []⟩⟩ := by
  unfold insert
  by_cases hn : h.contains n
  · simp [hn]
  · by_cases hp : h.contains p
    · simp [hn, hp, eq_comm]
    · simp [hn, hp]

section Insert

variable {h h' : Hierarchy κ} {n p : κ} (hi : h.insert n p = .ok h')

include hi

theorem parent?_insert (m : κ) : h'.parent? m = if m = n then some p else h.parent? m := by
  obtain ⟨-, -, rfl⟩ := insert_eq_ok.1 hi
  rw [parent?_set, attach, parent?_changeChildren]

theorem contains_insert (m : κ) : h'.contains m ↔ m = n ∨ h.contains m := by
  obtain ⟨-, -, rfl⟩ := insert_eq_ok.1 hi
  rw [contains_set, attach, contains_changeChildren]

theorem children_insert (m : κ) :
    h'.children m = if m = n then [] else if m = p then h.children p ++ [n] else h.children m := by
  obtain ⟨-, hp, rfl⟩ := insert_eq_ok.1 hi
  rw [children_set, attach, children_changeChildren h hp]

omit [LawfulEqOrd κ] [DecidableEq κ] in
theorem no_child_of_new (hf : h.Forest) (m : κ) : h.parent? m ≠ some n := by
  obtain ⟨hn, -, -⟩ := insert_eq_ok.1 hi
  exact fun hm => hn (hf.parent_mem m n hm)

theorem child_iff_insert (hf : h.Forest) (m q : κ) : m ∈ h'.children q ↔ h'.parent? m = some q := by
  obtain ⟨hn, hp, -⟩ := insert_eq_ok.1 hi
  have hpn : p ≠ n := fun he => hn (he ▸ hp)
  rw [children_insert hi, parent?_insert hi]
  by_cases hq : q = n
  · rw [hq]
    by_cases hm : m = n <;> simp [hm, hpn, no_child_of_new hi hf m]
  · have hnot := not_mem_children hf hn q
    rw [if_neg hq]
    by_cases hqp : q = p
    · by_cases hm : m = n <;> simp [hm, hqp, hf.child_iff]
    · by_cases hm : m = n <;> simp [hm, hqp, Ne.symm hqp, hnot, hf.child_iff]

theorem insert_forest (hf : h.Forest) : h'.Forest := by
  obtain ⟨hn, hp, -⟩ := insert_eq_ok.1 hi
  have hpn : p ≠ n := fun he => hn (he ▸ hp)
  refine ⟨?_, child_iff_insert hi hf, ?_, ?_⟩
  · intro m q hq
    rw [contains_insert hi]
    rw [parent?_insert hi] at hq
    split at hq
    · exact Or.inr (Option.some.inj hq ▸ hp)
    · exact Or.inr (hf.parent_mem m q hq)
  · intro q
    rw [children_insert hi]
    split
    · exact List.nodup_nil
    · split
      · exact nodup_attached hf (not_mem_children hf hn p)
      · exact hf.nodup q
  · obtain ⟨rank, hr⟩ := hf.ranked
    refine ⟨fun m => if m = n then rank p + 1 else rank m, ?_⟩
    intro m q hq
    rw [parent?_insert hi] at hq
    split at hq
    · rename_i hm
      rw [← Option.some.inj hq]
      simp [hm, hpn]
    · rename_i hm
      have hqn : q ≠ n := fun he => no_child_of_new hi hf m (he ▸ hq)
      simpa [hm, hqn] using hr m q hq

end Insert

/-! ### A node taken from its parent -/

@[simp] theorem parent?_detach (h : Hierarchy κ) (n m : κ) : (h.detach n).parent? m = h.parent? m := by
  unfold detach
  split
  · exact parent?_changeChildren ..
  · rfl

omit [LawfulEqOrd κ] in
@[simp] theorem contains_detach (h : Hierarchy κ) (n m : κ) : (h.detach n).contains m = h.contains m := by
  unfold detach
  split
  · exact contains_changeChildren ..
  · rfl

theorem children_detach {h : Hierarchy κ} (hf : h.Forest) (n m : κ) :
    (h.detach n).children m = (h.children m).filter (· != n) := by
  have other : h.parent? n ≠ some m → (h.children m).filter (· != n) = h.children m := by
    intro hm
    rw [List.filter_eq_self]
    intro c hc
    have : c ≠ n := fun he => hm (he ▸ (hf.child_iff c m).1 hc)
    simpa using this
  unfold detach
  cases hp : h.parent? n with
  | none => exact (other (by simp [hp])).symm
  | some p =>
    simp only []
    rw [children_changeChildren h (hf.parent_mem n p hp)]
    split
    · rename_i hm
      rw [hm]
    · rename_i hm
      exact (other (by simpa [hp] using Ne.symm hm)).symm

/-! ### A leaf removed -/

omit [LawfulEqOrd κ] in
theorem remove_eq_ok {h h' : Hierarchy κ} {n : κ} : h.remove n = .ok h' ↔
    h.contains n ∧ h.children n = [] ∧ h' = ⟨(h.detach n).nodes.erase n⟩ := by
  unfold remove
  by_cases hn : h.contains n
  · by_cases hc : h.children n = []
    · simp [hn, hc, eq_comm]
    · simp [hn, hc]
  · simp [hn]

section Remove

variable {h h' : Hierarchy κ} {n : κ} (hr : h.remove n = .ok h')

include hr

theorem parent?_remove (m : κ) : h'.parent? m = if m = n then none else h.parent? m := by
  obtain ⟨-, -, rfl⟩ := remove_eq_ok.1 hr
  rw [parent?_erase, parent?_detach]

theorem contains_remove (m : κ) : h'.contains m ↔ m ≠ n ∧ h.contains m := by
  obtain ⟨-, -, rfl⟩ := remove_eq_ok.1 hr
  rw [contains_erase, contains_detach]

theorem children_remove (hf : h.Forest) (m : κ) :
    h'.children m = if m = n then [] else (h.children m).filter (· != n) := by
  obtain ⟨-, -, rfl⟩ := remove_eq_ok.1 hr
  rw [children_erase, children_detach hf]

omit [LawfulEqOrd κ] in
theorem no_child_of_removed (hf : h.Forest) (m : κ) : h.parent? m ≠ some n := by
  obtain ⟨-, hc, -⟩ := remove_eq_ok.1 hr
  intro hm
  have := (hf.child_iff m n).2 hm
  simp [hc] at this

theorem remove_forest (hf : h.Forest) : h'.Forest := by
  refine ⟨?_, ?_, ?_, ?_⟩
  · intro m q hq
    rw [parent?_remove hr] at hq
    split at hq
    · simp at hq
    · refine (contains_remove hr q).2 ⟨fun he => ?_, hf.parent_mem m q hq⟩
      exact no_child_of_removed hr hf m (he ▸ hq)
  · intro m q
    rw [children_remove hr hf, parent?_remove hr]
    by_cases hq : q = n
    · subst hq
      have := no_child_of_removed hr hf m
      by_cases hm : m = q <;> simp [hm, this]
    · by_cases hm : m = n <;> simp [hm, hq, hf.child_iff]
  · intro q
    rw [children_remove hr hf]
    split
    · exact List.nodup_nil
    · exact (hf.nodup q).filter _
  · obtain ⟨rank, hrank⟩ := hf.ranked
    refine ⟨rank, fun m q hq => ?_⟩
    rw [parent?_remove hr] at hq
    split at hq
    · simp at hq
    · exact hrank m q hq

end Remove

/-! ### A subtree moved -/

/-- the forest with `n` as last child of `p`, which was not its parent -/
def moved (h : Hierarchy κ) (n p : κ) : Hierarchy κ :=
  ⟨((h.detach n).attach n p).nodes.modify n fun d => { d with parent := some p }⟩

omit [LawfulEqOrd κ] in
theorem reparentFault_eq_none {h : Hierarchy κ} {n p : κ} : h.reparentFault n p = none ↔
    h.contains n ∧ h.contains p ∧ ¬ h.isRoot n ∧ ¬ h.isSubtypeOf p n := by
  unfold reparentFault
  by_cases hn : h.contains n <;> by_cases hp : h.contains p <;> by_cases hr : h.isRoot n <;>
    by_cases hs : h.isSubtypeOf p n <;> simp [hn, hp, hr, hs]

omit [LawfulEqOrd κ] in
theorem reparent_eq_ok {h h' : Hierarchy κ} {n p : κ} {old : Option κ} : h.reparent n p = .ok (old, h') ↔
    h.reparentFault n p = none ∧ old = h.parent? n ∧
      h' = if h.parent? n = some p then h else h.moved n p := by
  unfold reparent
  cases hf : h.reparentFault n p with
  | some e => simp
  | none =>
    by_cases hp : h.parent? n = some p
    · simp [hp, eq_comm]
    · simp [hp, moved, eq_comm]

omit [LawfulEqOrd κ] in
theorem isSubtypeOf_iff {h : Hierarchy κ} {n a : κ} : h.isSubtypeOf n a ↔ a ∈ h.supertypes n := by
  simp [isSubtypeOf]

section Reparent

variable {h h' : Hierarchy κ} {n p : κ} {old : Option κ} (hm : h.reparent n p = .ok (old, h'))

include hm

theorem parent?_reparent (m : κ) : h'.parent? m = if m = n then some p else h.parent? m := by
  obtain ⟨hfault, -, rfl⟩ := reparent_eq_ok.1 hm
  obtain ⟨hn, -, -, -⟩ := reparentFault_eq_none.1 hfault
  split
  · rename_i hp
    split
    · rename_i he
      rw [he, hp]
    · rfl
  · rw [moved, parent?_setParent _ (by simpa [attach] using hn), attach, parent?_changeChildren, parent?_detach]

omit [LawfulEqOrd κ] in
theorem contains_reparent (m : κ) : h'.contains m ↔ h.contains m := by
  obtain ⟨-, -, rfl⟩ := reparent_eq_ok.1 hm
  split
  · exact Iff.rfl
  · have : (h.moved n p).contains m = ((h.detach n).attach n p).contains m := ExtTreeMap.contains_modify
    rw [this, attach, contains_changeChildren, contains_detach]

theorem children_moved (hf : h.Forest) (hp : h.parent? n ≠ some p) (m : κ) :
    h'.children m = if m = p then h.children p ++ [n] else (h.children m).filter (· != n) := by
  obtain ⟨hfault, -, rfl⟩ := reparent_eq_ok.1 hm
  obtain ⟨-, hcp, -, -⟩ := reparentFault_eq_none.1 hfault
  rw [if_neg hp, moved, children_setParent, attach, children_changeChildren _ (by simpa using hcp)]
  split
  · rw [children_detach hf, List.filter_eq_self.2]
    intro c hc
    have : c ≠ n := fun he => hp (he ▸ (hf.child_iff c p).1 hc)
    simpa using this
  · exact children_detach hf n m

omit [LawfulEqOrd κ] in
theorem not_above_new_parent : n ∉ h.supertypes p := by
  obtain ⟨hfault, -, -⟩ := reparent_eq_ok.1 hm
  exact fun hn => (reparentFault_eq_none.1 hfault).2.2.2 (isSubtypeOf_iff.2 hn)

/-- everything at or below the node that moves is lifted above the rank of the new parent -/
theorem ranked_reparent (hf : h.Forest) : ∃ rank : κ → Nat, ∀ m q, h'.parent? m = some q → rank q < rank m := by
  obtain ⟨hfault, -, -⟩ := reparent_eq_ok.1 hm
  obtain ⟨hn, -, -, -⟩ := reparentFault_eq_none.1 hfault
  obtain ⟨rank, hr⟩ := hf.ranked
  refine ⟨fun m => rank m + if n ∈ h.supertypes m then rank p + 1 else 0, ?_⟩
  intro m q hmq
  rw [parent?_reparent hm] at hmq
  split at hmq
  · rename_i hmn
    rw [← Option.some.inj hmq, hmn]
    simp only [not_above_new_parent hm, if_false, self_mem_supertypes hf hn, if_true]
    omega
  · rename_i hmn
    have hiff : n ∈ h.supertypes m ↔ n ∈ h.supertypes q := by
      rw [mem_supertypes_iff hf]
      simp [hmq, Ne.symm hmn]
    have := hr m q hmq
    simp only [hiff]
    omega

theorem reparent_forest (hf : h.Forest) : h'.Forest := by
  obtain ⟨hfault, -, he⟩ := reparent_eq_ok.1 hm
  obtain ⟨-, hp, -, -⟩ := reparentFault_eq_none.1 hfault
  by_cases hq : h.parent? n = some p
  · rw [he, if_pos hq]
    exact hf
  refine ⟨?_, ?_, ?_, ranked_reparent hm hf⟩
  · intro m q hmq
    rw [contains_reparent hm]
    rw [parent?_reparent hm] at hmq
    split at hmq
    · exact Option.some.inj hmq ▸ hp
    · exact hf.parent_mem m q hmq
  · intro m q
    rw [children_moved hm hf hq, parent?_reparent hm]
    by_cases hqp : q = p
    · by_cases hmn : m = n <;> simp [hqp, hmn, hf.child_iff]
    · by_cases hmn : m = n <;> simp [hmn, hqp, Ne.symm hqp, hf.child_iff]
  · intro q
    rw [children_moved hm hf hq]
    split
    · exact nodup_attached hf fun hc => hq ((hf.child_iff n p).1 hc)
    · exact (hf.nodup q).filter _

theorem supertypes_reparent_self (hf : h.Forest) : h'.supertypes n = n :: h.supertypes p := by
  obtain ⟨hfault, -, -⟩ := reparent_eq_ok.1 hm
  obtain ⟨hn, hp, -, -⟩ := reparentFault_eq_none.1 hfault
  rw [supertypes_eq (reparent_forest hm hf) ((contains_reparent hm n).2 hn), parent?_reparent hm, if_pos rfl]
  refine congrArg (n :: ·) (supertypes_congr hf (reparent_forest hm hf) hp ?_)
  intro a ha
  refine ⟨(contains_reparent hm a).2 (contains_of_mem_supertypes hf ha).2, ?_⟩
  rw [parent?_reparent hm, if_neg (show a ≠ n from fun he => not_above_new_parent hm (he ▸ ha))]

end Reparent

/-! ## One root and its children -/

section Star

variable {root : κ} {leaves : List κ} (hl : (root :: leaves).Nodup)

include hl

theorem lookup_star {m : κ} {d : Node κ} : (star root leaves).nodes[m]? = some d ↔
    (m = root ∧ d = ⟨none, leaves⟩) ∨ (m ∈ leaves ∧ d = ⟨some root, []⟩) := by
  have hkeys : (((root, ⟨none, leaves⟩) :: leaves.map fun n => (n, ⟨some root, []⟩) :
      List (κ × Node κ)).map Prod.fst).Nodup := by
    simpa [Function.comp_def] using hl
  simp only [star, lookup_ofList hkeys, List.mem_cons, Prod.mk.injEq, List.mem_map]
  constructor
  · intro hcase
    rcases hcase with ⟨rfl, rfl⟩ | ⟨a, ha, rfl, rfl⟩
    · exact Or.inl ⟨rfl, rfl⟩
    · exact Or.inr ⟨ha, rfl⟩
  · intro hcase
    rcases hcase with ⟨rfl, rfl⟩ | ⟨hm, rfl⟩
    · exact Or.inl ⟨rfl, rfl⟩
    · exact Or.inr ⟨m, hm, rfl, rfl⟩

theorem contains_star {m : κ} : (star root leaves).contains m ↔ m = root ∨ m ∈ leaves := by
  simp only [contains, contains_iff, lookup_star hl]
  constructor
  · rintro ⟨d, ⟨hm, -⟩ | ⟨hm, -⟩⟩
    · exact Or.inl hm
    · exact Or.inr hm
  · intro hcase
    rcases hcase with hm | hm
    · exact ⟨_, Or.inl ⟨hm, rfl⟩⟩
    · exact ⟨_, Or.inr ⟨hm, rfl⟩⟩

theorem parent?_star {m p : κ} : (star root leaves).parent? m = some p ↔ m ∈ leaves ∧ p = root := by
  simp only [parent?, Option.bind_eq_some_iff, lookup_star hl]
  constructor
  · rintro ⟨d, ⟨-, rfl⟩ | ⟨hm, rfl⟩, hp⟩
    · simp at hp
    · exact ⟨hm, (Option.some.inj hp).symm⟩
  · rintro ⟨hm, rfl⟩
    exact ⟨_, Or.inr ⟨hm, rfl⟩, rfl⟩

theorem children_star (p : κ) : (star root leaves).children p = if p = root then leaves else [] := by
  by_cases hp : p = root
  · have : (star root leaves).nodes[p]? = some ⟨none, leaves⟩ := (lookup_star hl).2 (Or.inl ⟨hp, rfl⟩)
    rw [children, this, if_pos hp]
    rfl
  · rw [if_neg hp, children]
    cases hd : (star root leaves).nodes[p]? with
    | none => rfl
    | some d =>
      rcases (lookup_star hl).1 hd with ⟨h, -⟩ | ⟨-, rfl⟩
      · exact absurd h hp
      · rfl

theorem star_forest : (star root leaves).Forest := by
  have hroot : root ∉ leaves := (List.nodup_cons.1 hl).1
  refine ⟨?_, ?_, ?_, ?_⟩
  · intro n p hp
    exact (contains_star hl).2 (Or.inl ((parent?_star hl).1 hp).2)
  · intro n p
    rw [children_star hl, parent?_star hl]
    by_cases hp : p = root <;> simp [hp]
  · intro p
    rw [children_star hl]
    split
    · exact (List.nodup_cons.1 hl).2
    · exact List.nodup_nil
  · refine ⟨fun n => if n = root then 0 else 1, fun n p hp => ?_⟩
    obtain ⟨hn, rfl⟩ := (parent?_star hl).1 hp
    have : n ≠ p := fun he => hroot (he ▸ hn)
    simp [this]

end Star

end ConceptGraph.Hierarchy
