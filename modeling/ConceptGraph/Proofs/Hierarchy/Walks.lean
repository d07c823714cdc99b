/-
Walks through forests: which nodes they meet, in which order, and that they come to an end.

- `Change`, `change`, `run`: forests come about by one edit after the other, and an edit that is refused changes nothing.
  `run_forest`: whatever is tried, they stay forests.
- `climb?`, `descend?`: the two walks, one node further. The walk upwards stops where it has been before. The walk
  downwards keeps the nodes that wait for their turn and does not know where it has been.
- `Walks`: a walk meets the nodes of a list, and then ends. `walks_supertypes`, `walks_subtypes`: so do these two, with
  the lists that the forest answers.
- `getElem?_supertypes`, `subtypes_groups`, `subtypes_nearest_first`: the order of these lists.
- `walks_exact`: all of it, for whatever forest edits lead to.
-/
import ConceptGraph.Proofs.Hierarchy.Forest

namespace ConceptGraph

open Std

/-- a walk that goes from stage to stage meets the elements of the list, and then ends -/
inductive Walks {σ α : Type} (step : σ → Option (α × σ)) : σ → List α → Prop where
  | done {s : σ} (h : step s = none) : Walks step s []
  | next {s u : σ} {a : α} {as : List α} (h : step s = some (a, u)) (rest : Walks step u as) : Walks step s (a :: as)

namespace Hierarchy

variable {κ : Type} [Ord κ] [TransOrd κ]

/-! ## Forests that edits lead to -/

theorem empty_forest : (empty : Hierarchy κ).Forest := by
  have hparent : ∀ n : κ, empty.parent? n = none := fun n => by simp [empty, parent?]
  have hchildren : ∀ n : κ, empty.children n = [] := fun n => by simp [empty, children]
  refine ⟨?_, ?_, ?_, ⟨fun _ => 0, ?_⟩⟩ <;> simp [hparent, hchildren]

theorem insertRoot_eq_ok {h h' : Hierarchy κ} {n : κ} :
    h.insertRoot n = .ok h' ↔ ¬ h.contains n ∧ h' = ⟨h.nodes.insert n ⟨none, []⟩⟩ := by
  unfold insertRoot
  by_cases hn : h.contains n
  · simp [hn]
  · simp [hn, eq_comm]

/-- an edit of a forest -/
inductive Change (κ : Type) where
  | insertRoot (n : κ)
  | insert (n p : κ)
  | reparent (n p : κ)
  | remove (n : κ)
  deriving DecidableEq, Repr

section Edits

variable [LawfulEqOrd κ] [DecidableEq κ] {h h' : Hierarchy κ} {n : κ}

/-- the forest after an edit, which changes nothing if it is refused -/
def change (h : Hierarchy κ) : Change κ → Hierarchy κ
  | .insertRoot n => (h.insertRoot n).toOption.getD h
  | .insert n p => (h.insert n p).toOption.getD h
  | .reparent n p => ((h.reparent n p).map Prod.snd).toOption.getD h
  | .remove n => (h.remove n).toOption.getD h

/-- the forest after one edit after the other -/
def run (h : Hierarchy κ) (cs : List (Change κ)) : Hierarchy κ := cs.foldl change h

/-- a new root is nobody's parent and nobody's child -/
theorem insertRoot_forest (hi : h.insertRoot n = .ok h') (hf : h.Forest) : h'.Forest := by
  obtain ⟨hn, rfl⟩ := insertRoot_eq_ok.1 hi
  have hparent : ∀ m, (⟨h.nodes.insert n ⟨none, []⟩⟩ : Hierarchy κ).parent? m = h.parent? m := by
    intro m
    rw [parent?_set]
    split
    · rename_i hm
      rw [hm, parent?_of_not_contains hn]
    · rfl
  have hchildren : ∀ m, (⟨h.nodes.insert n ⟨none, []⟩⟩ : Hierarchy κ).children m = h.children m := by
    intro m
    rw [children_set]
    split
    · rename_i hm
      refine (List.eq_nil_iff_forall_not_mem.2 fun c hc => hn (hf.parent_mem c n ?_)).symm
      exact (hf.child_iff c n).1 (hm ▸ hc)
    · rfl
  refine ⟨?_, ?_, ?_, ?_⟩
  · intro m p hp
    rw [hparent] at hp
    exact (contains_set ..).2 (Or.inr (hf.parent_mem m p hp))
  · intro m p
    rw [hchildren, hparent]
    exact hf.child_iff m p
  · intro p
    rw [hchildren]
    exact hf.nodup p
  · obtain ⟨rank, hr⟩ := hf.ranked
    exact ⟨rank, fun m p hp => hr m p (hparent m ▸ hp)⟩

/-- what an edit leads to is a forest, whether it is done or refused -/
theorem change_forest (hf : h.Forest) (c : Change κ) : (h.change c).Forest := by
  cases c with
  | insertRoot n =>
    rw [change]
    cases hc : h.insertRoot n with
    | error e => exact hf
    | ok h' => exact insertRoot_forest hc hf
  | insert n p =>
    rw [change]
    cases hc : h.insert n p with
    | error e => exact hf
    | ok h' => exact insert_forest hc hf
  | reparent n p =>
    rw [change]
    cases hc : h.reparent n p with
    | error e => exact hf
    | ok r =>
      obtain ⟨old, h'⟩ := r
      exact reparent_forest hc hf
  | remove n =>
    rw [change]
    cases hc : h.remove n with
    | error e => exact hf
    | ok h' => exact remove_forest hc hf

theorem run_forest (hf : h.Forest) (cs : List (Change κ)) : (h.run cs).Forest := by
  induction cs generalizing h with
  | nil => exact hf
  | cons c cs ih => exact ih (change_forest hf c)

end Edits

/-! ## One node further -/

/-- the walk upwards: where it goes next, if anywhere, and where it has been -/
def climb? [DecidableEq κ] (h : Hierarchy κ) : Option κ × List κ → Option (κ × Option κ × List κ)
  | (none, _) => none
  | (some n, seen) => if n ∈ seen then none else some (n, h.parent? n, n :: seen)

/-- the walk downwards: the nodes that wait for their turn -/
def descend? (h : Hierarchy κ) : List κ → Option (κ × List κ)
  | [] => none
  | n :: waiting => some (n, waiting ++ h.children n)

/-- where a walk from a node starts: nowhere, if the node is not there -/
def start? (h : Hierarchy κ) (n : κ) : Option κ := if h.contains n then some n else none

variable {h : Hierarchy κ} {n a b : κ} {k l : Nat}

/-! ## Distances -/

theorem getElem?_chain (h : Hierarchy κ) (fuel k : Nat) (n : κ) :
    (h.chain fuel n)[k]? = if k < fuel then h.ancestor? k n else none := by
  induction fuel generalizing k n with
  | zero => simp [chain]
  | succ fuel ih =>
    rw [chain]
    cases k with
    | zero => simp [ancestor?]
    | succ k =>
      rw [List.getElem?_cons_succ, ancestor?]
      cases hp : h.parent? n with
      | none => simp
      | some p => simpa using ih k p

/-- nothing is further above a node than there are nodes -/
theorem lt_size_of_ancestor? [LawfulEqOrd κ] (hf : h.Forest) (hn : h.contains n) (ha : h.ancestor? k n = some a) :
    k < h.size := by
  have hk : (h.chain (k + 1) n)[k]? = some a := by
    rw [getElem?_chain, if_pos (Nat.lt_succ_self k), ha]
  exact Nat.lt_of_lt_of_le (List.getElem?_eq_some_iff.1 hk).1 (chain_length_le_size hf hn)

theorem ancestor?_add (h : Hierarchy κ) (k l : Nat) (n : κ) :
    h.ancestor? (k + l) n = (h.ancestor? k n).bind (h.ancestor? l) := by
  induction k generalizing n with
  | zero => simp [ancestor?]
  | succ k ih =>
    rw [Nat.succ_add, ancestor?, ancestor?]
    cases h.parent? n with
    | none => rfl
    | some p => simpa using ih p

/-- a node is at one distance only from what is above it -/
theorem ancestor?_injective (hf : h.Forest) (hk : h.ancestor? k n = some a) (hl : h.ancestor? l n = some a) : k = l := by
  have apart : ∀ {k l : Nat}, h.ancestor? k n = some a → h.ancestor? l n = some a → ¬ k < l := by
    intro k l hk hl hlt
    obtain ⟨d, rfl⟩ := Nat.exists_eq_add_of_lt hlt
    rw [Nat.add_assoc, ancestor?_add, hk, Option.bind_some] at hl
    exact ancestor?_ne_self hf d a hl
  exact Nat.le_antisymm (Nat.not_lt.1 (apart hl hk)) (Nat.not_lt.1 (apart hk hl))

/-! ## Upwards -/

/-- what is so of a node if it is so of its parent is so of all nodes -/
theorem Forest.parent_induction (hf : h.Forest) {P : κ → Prop} (step : ∀ n, (∀ p, h.parent? n = some p → P p) → P n)
    (n : κ) : P n := by
  obtain ⟨rank, hr⟩ := hf.ranked
  exact (measure rank).wf.induction n fun n ih => step n fun p hp => ih p (hr n p hp)

/-- **The order upwards.** The node itself, its parent, the parent of that one and so on, up to the end. -/
theorem getElem?_supertypes [LawfulEqOrd κ] (hf : h.Forest) (hn : h.contains n) (k : Nat) :
    (h.supertypes n)[k]? = h.ancestor? k n := by
  rw [supertypes, if_pos hn, getElem?_chain]
  split
  · rfl
  · rename_i hk
    cases ha : h.ancestor? k n with
    | none => rfl
    | some a => exact absurd (lt_size_of_ancestor? hf hn ha) hk

theorem mem_supertypes [LawfulEqOrd κ] (hf : h.Forest) :
    a ∈ h.supertypes n ↔ h.contains n ∧ ∃ k, h.ancestor? k n = some a := by
  by_cases hn : h.contains n
  · simp only [List.mem_iff_getElem?, getElem?_supertypes hf hn, hn, true_and]
  · simp [supertypes_of_not_contains hn, hn]

theorem nodup_supertypes (hf : h.Forest) (n : κ) : (h.supertypes n).Nodup := by
  unfold supertypes
  split
  · exact chain_nodup hf _ n
  · exact List.nodup_nil

/-- the walk upwards ends at a root -/
theorem getLast?_supertypes [LawfulEqOrd κ] (hf : h.Forest) (hn : h.contains n) :
    ∃ r, (h.supertypes n).getLast? = some r ∧ h.isRoot r := by
  induction n using hf.parent_induction with
  | _ n ih =>
    rw [supertypes_eq hf hn]
    cases hp : h.parent? n with
    | none =>
      obtain ⟨d, hd⟩ := contains_iff.1 hn
      refine ⟨n, rfl, ?_⟩
      rw [parent?, hd, Option.bind_some] at hp
      simp [isRoot, hd, hp]
    | some p =>
      obtain ⟨r, hr, hroot⟩ := ih p hp (hf.parent_mem n p hp)
      refine ⟨r, ?_, hroot⟩
      rw [Option.elim_some, List.getLast?_cons, hr, Option.getD_some]

/-- the number of nodes properly above a node -/
theorem depth_eq [LawfulEqOrd κ] [DecidableEq κ] (hf : h.Forest) (n : κ) :
    h.depth n = {a | ∃ k, h.ancestor? (k + 1) n = some a}.ncard := by
  by_cases hn : h.contains n
  · have hsupers := supertypes_eq hf hn
    have hnodup := nodup_supertypes hf n
    have habove : ∀ a, a ∈ (h.supertypes n).tail ↔ ∃ k, h.ancestor? (k + 1) n = some a := by
      intro a
      simp only [List.mem_iff_getElem?, List.getElem?_tail, getElem?_supertypes hf hn]
    rw [hsupers] at hnodup
    have hset : {a | ∃ k, h.ancestor? (k + 1) n = some a} = ((h.supertypes n).tail.toFinset : Set κ) := by
      ext a
      simp [habove]
    rw [hset, Set.ncard_coe_finset, List.toFinset_card_of_nodup (hsupers ▸ (List.nodup_cons.1 hnodup).2),
      List.length_tail, depth]
  · have hnone : ∀ k, h.ancestor? (k + 1) n = none := by
      intro k
      rw [ancestor?, parent?_of_not_contains hn, Option.bind_none]
    simp [depth, supertypes_of_not_contains hn, hnone]

theorem walks_climb [LawfulEqOrd κ] [DecidableEq κ] (hf : h.Forest) (hn : h.contains n) {seen : List κ}
    (hseen : ∀ a ∈ h.supertypes n, a ∉ seen) : Walks h.climb? (some n, seen) (h.supertypes n) := by
  induction n using hf.parent_induction generalizing seen with
  | _ n ih =>
    have hnodup := nodup_supertypes hf n
    rw [supertypes_eq hf hn] at hnodup hseen ⊢
    refine .next (u := (h.parent? n, n :: seen)) (if_neg (hseen n List.mem_cons_self)) ?_
    cases hp : h.parent? n with
    | none => exact .done rfl
    | some p =>
      rw [hp, Option.elim_some] at hnodup hseen
      refine ih p hp (hf.parent_mem n p hp) fun a ha => ?_
      rw [List.mem_cons, not_or]
      exact ⟨fun he => (List.nodup_cons.1 hnodup).1 (he ▸ ha), hseen a (List.mem_cons_of_mem n ha)⟩

/-- **The walk upwards** never meets a node that it has met before. -/
theorem walks_supertypes [LawfulEqOrd κ] [DecidableEq κ] (hf : h.Forest) (n : κ) :
    Walks h.climb? (h.start? n, []) (h.supertypes n) := by
  rw [start?]
  split
  · rename_i hn
    exact walks_climb hf hn fun _ _ => List.not_mem_nil
  · rename_i hn
    rw [supertypes_of_not_contains hn]
    exact .done rfl

/-! ## Downwards -/

theorem subtypes_of_not_contains (hn : ¬ h.contains n) : h.subtypes n = [] := if_neg hn

/-- the nodes that are `k` generations below those of a level -/
def generation (h : Hierarchy κ) : Nat → List κ → List κ
  | 0, level => level
  | k + 1, level => generation h k (level.flatMap h.children)

theorem mem_generation (hf : h.Forest) {level : List κ} :
    b ∈ h.generation k level ↔ ∃ a ∈ level, h.ancestor? k b = some a := by
  induction k generalizing level with
  | zero => simp [generation, ancestor?]
  | succ k ih =>
    rw [generation, ih]
    simp only [List.mem_flatMap, hf.child_iff, ancestor?_succ, Option.bind_eq_some_iff]
    constructor
    · rintro ⟨c, ⟨a, ha, hca⟩, hbc⟩
      exact ⟨a, ha, c, hbc, hca⟩
    · rintro ⟨a, ha, c, hbc, hca⟩
      exact ⟨c, ⟨a, ha, hca⟩, hbc⟩

/-- the generations below a node have died out after as many as there are nodes -/
theorem generation_size [LawfulEqOrd κ] (hf : h.Forest) (hn : h.contains n) : h.generation h.size [n] = [] := by
  refine List.eq_nil_iff_forall_not_mem.2 fun b hb => ?_
  obtain ⟨a, ha, hab⟩ := (mem_generation hf).1 hb
  rw [List.mem_singleton.1 ha] at hab
  exact Nat.lt_irrefl _ (lt_size_of_ancestor? hf ((ancestor?_contains hf hab).2 hn) hab)

theorem generations_nil (h : Hierarchy κ) (fuel : Nat) : h.generations fuel [] = [] := by
  cases fuel <;> rfl

theorem generations_succ (h : Hierarchy κ) (fuel : Nat) (level : List κ) :
    h.generations (fuel + 1) level = level ++ h.generations fuel (level.flatMap h.children) := by
  rw [generations]
  split
  · rename_i hl
    rw [List.isEmpty_iff.1 hl, List.flatMap_nil, generations_nil, List.append_nil]
  · rfl

/-- after a level come the children of whoever has come, in turn -/
theorem generations_groups {fuel : Nat} {level : List κ} (hend : h.generation fuel level = []) :
    h.generations fuel level = level ++ (h.generations fuel level).flatMap h.children := by
  induction fuel generalizing level with
  | zero =>
    rw [generation] at hend
    simp [hend, generations]
  | succ fuel ih =>
    rw [generations_succ, List.flatMap_append, ← ih hend]

/-- **Siblings together.** After the node come the children of whoever has come, in turn, each time in their order. -/
theorem subtypes_groups [LawfulEqOrd κ] (hf : h.Forest) (hn : h.contains n) :
    h.subtypes n = n :: (h.subtypes n).flatMap h.children := by
  rw [subtypes, if_pos hn]
  exact generations_groups (generation_size hf hn)

theorem generations_nearest_first (hf : h.Forest) (d : Nat) {fuel : Nat} {level : List κ}
    (hd : ∀ a ∈ level, h.ancestor? d a = some n) : (h.generations fuel level).Pairwise fun a b =>
      ∃ k l, k ≤ l ∧ h.ancestor? k a = some n ∧ h.ancestor? l b = some n := by
  induction fuel generalizing level d with
  | zero => exact .nil
  | succ fuel ih =>
    have hnext : ∀ b ∈ level.flatMap h.children, h.ancestor? (d + 1) b = some n := by
      intro b hb
      obtain ⟨a, ha, hba⟩ := List.mem_flatMap.1 hb
      rw [ancestor?, (hf.child_iff b a).1 hba, Option.bind_some, hd a ha]
    rw [generations_succ, List.pairwise_append]
    refine ⟨List.pairwise_of_forall_mem_list fun a ha b hb => ⟨d, d, le_rfl, hd a ha, hd b hb⟩, ih (d + 1) hnext, ?_⟩
    intro a ha b hb
    obtain ⟨j, -, c, hc, hbc⟩ := (mem_generations hf).1 hb
    refine ⟨d, j + (d + 1), by omega, hd a ha, ?_⟩
    rw [ancestor?_add, hbc, Option.bind_some, hnext c hc]

/-- **The order downwards.** Whoever comes later is not nearer. -/
theorem subtypes_nearest_first (hf : h.Forest) (n : κ) : (h.subtypes n).Pairwise fun a b =>
    ∀ k l, h.ancestor? k a = some n → h.ancestor? l b = some n → k ≤ l := by
  unfold subtypes
  split
  · refine (generations_nearest_first (n := n) hf 0 fun a ha => congrArg some (List.mem_singleton.1 ha)).imp ?_
    rintro a b ⟨k, l, hkl, hk, hl⟩ k' l' hk' hl'
    rwa [ancestor?_injective hf hk' hk, ancestor?_injective hf hl' hl]
  · exact .nil

/-- a level is walked through to its end before the children of its nodes have their turn -/
theorem walks_level {level rest : List κ} (waiting : List κ)
    (hrest : Walks h.descend? (waiting ++ level.flatMap h.children) rest) :
    Walks h.descend? (level ++ waiting) (level ++ rest) := by
  induction level generalizing waiting with
  | nil => simpa using hrest
  | cons a level ih =>
    refine .next (u := level ++ (waiting ++ h.children a)) (by rw [List.cons_append, descend?, List.append_assoc]) (ih _ ?_)
    rwa [List.flatMap_cons, ← List.append_assoc] at hrest

theorem walks_generations {fuel : Nat} {level : List κ} (hend : h.generation fuel level = []) :
    Walks h.descend? level (h.generations fuel level) := by
  induction fuel generalizing level with
  | zero =>
    rw [generation] at hend
    rw [hend]
    exact .done rfl
  | succ fuel ih =>
    rw [generations_succ]
    simpa using walks_level [] (ih hend)

/-- **The walk downwards** ends, though it does not know where it has been. -/
theorem walks_subtypes [LawfulEqOrd κ] (hf : h.Forest) (n : κ) :
    Walks h.descend? (h.start? n).toList (h.subtypes n) := by
  rw [start?, subtypes]
  split
  · rename_i hn
    exact walks_generations (generation_size hf hn)
  · exact .done rfl

/-! ## Both -/

variable [LawfulEqOrd κ] [DecidableEq κ]

/-- what there is to say of the two walks -/
structure Walked (h : Hierarchy κ) : Prop where
  /-- both walks end, and meet what the forest answers -/
  up : ∀ n, Walks h.climb? (h.start? n, []) (h.supertypes n)
  down : ∀ n, Walks h.descend? (h.start? n).toList (h.subtypes n)
  /-- upwards: the node and its ancestors, nearest first, each once, and a root last -/
  above : ∀ n, h.contains n → ∀ k, (h.supertypes n)[k]? = h.ancestor? k n
  once_above : ∀ n, (h.supertypes n).Nodup
  ending : ∀ n, h.contains n → ∃ r, (h.supertypes n).getLast? = some r ∧ h.isRoot r
  /-- downwards: the node and its descendants, each once -/
  below : ∀ n m, m ∈ h.subtypes n ↔ h.contains n ∧ ∃ k, h.ancestor? k m = some n
  once_below : ∀ n, (h.subtypes n).Nodup
  /-- nearest first, and siblings together in their order, as their parents have come -/
  nearest : ∀ n, (h.subtypes n).Pairwise fun a b =>
    ∀ k l, h.ancestor? k a = some n → h.ancestor? l b = some n → k ≤ l
  groups : ∀ n, h.contains n → h.subtypes n = n :: (h.subtypes n).flatMap h.children
  inverse : ∀ a b, b ∈ h.supertypes a ↔ a ∈ h.subtypes b
  depth : ∀ n, h.depth n = {a | ∃ k, h.ancestor? (k + 1) n = some a}.ncard
  unknown : ∀ n, ¬ h.contains n → h.supertypes n = [] ∧ h.subtypes n = []

theorem Forest.walked (hf : h.Forest) : h.Walked where
  up := walks_supertypes hf
  down := walks_subtypes hf
  above _ hn := getElem?_supertypes hf hn
  once_above := nodup_supertypes hf
  ending _ hn := getLast?_supertypes hf hn
  below n m := by
    rw [mem_subtypes hf, mem_supertypes hf]
    exact and_congr_left fun ⟨_, hk⟩ => ancestor?_contains hf hk
  once_below := nodup_subtypes hf
  nearest := subtypes_nearest_first hf
  groups _ hn := subtypes_groups hf hn
  inverse _ _ := (mem_subtypes hf).symm
  depth := depth_eq hf
  unknown _ hn := ⟨supertypes_of_not_contains hn, subtypes_of_not_contains hn⟩

/-- **Walks** are exact in whatever forest edits lead to, done or refused. -/
theorem walks_exact (cs : List (Change κ)) : (empty.run cs).Walked := (run_forest empty_forest cs).walked

/-- a tree of five and a root apart, after a move, a removal and three edits that are refused -/
def grove : List (Change Nat) :=
  [.insertRoot 0, .insert 1 0, .insert 2 1, .insert 3 1, .insert 4 0, .insert 5 4, .insertRoot 6, .reparent 1 3,
    .reparent 0 6, .reparent 2 4, .remove 1, .insert 7 3, .insert 8 7, .remove 8]

/-- the walk down from the root of the grove, breadth first -/
theorem grove_walked : (empty.run grove).Walked ∧ (empty.run grove).subtypes 0 = [0, 1, 4, 3, 5, 2, 7] ∧
    (empty.run grove).supertypes 2 = [2, 4, 0] ∧ (empty.run grove).depth 7 = 3 ∧ (empty.run grove).subtypes 8 = [] :=
  ⟨walks_exact grove, by decide +kernel, by decide +kernel, by decide +kernel, by decide +kernel⟩

end Hierarchy

end ConceptGraph
