/-
What types inherit. Eight walks look for declarations on a line of supertypes, or on two: one by one, as sets, with one
of them left out, and keys alone. They find the same declarations, and where only one can count it is the nearest one.

- `StepsAbove`: so many steps up the line. `Admits`, `Nearest`: a declaration that lets instances of one type hold
  those of another, by the steps to either end, and the one with the fewest steps.
- `ownershipWithout_eq_some`, `ownershipWithout_eq_none`: the walk along two lines finds that one, and misses none.
- `mem_ownedAttributes`, `key_ownedAttributes`: what the table of owned attribute types says. A type is listed by any
  declaration, and as a key by any key.
- `State.Inherits`: all ways to read declarations agree. `Session.run_inherits`: they do in every state that a session
  gets to.
-/
import ConceptGraph.Proofs.Keys.KeyedHolding
import ConceptGraph.Proofs.Identifiers.PrimitiveEdits
import ConceptGraph.Proofs.Hierarchy.Walks
import ConceptGraph.State.Reads

namespace ConceptGraph

open Std

/-! ## Walks that collect -/

theorem mem_foldl_insertMany {α : Type} {f : α → List TypeId} {as : List α} {m : ExtTreeSet TypeId} {x : TypeId} :
    x ∈ as.foldl (fun m a => m.insertMany (f a)) m ↔ x ∈ m ∨ ∃ a ∈ as, x ∈ f a := by
  induction as generalizing m with
  | nil => simp
  | cons a as ih =>
    rw [List.foldl_cons, ih, ExtTreeSet.mem_insertMany_list]
    simp [or_assoc]

/-- what a walk finds is at the first place where there is anything -/
theorem first_of_findSome? {α β : Type} {f : α → Option β} {as : List α} {b : β} (h : as.findSome? f = some b) :
    ∃ (i : Nat) (a : α), as[i]? = some a ∧ f a = some b ∧ ∀ j a', j < i → as[j]? = some a' → f a' = none := by
  obtain ⟨before, a, after, rfl, hb, hnone⟩ := List.findSome?_eq_some_iff.1 h
  refine ⟨before.length, a, by simp, hb, fun j a' hj ha' => hnone a' ?_⟩
  rw [List.getElem?_append_left hj] at ha'
  exact List.mem_of_getElem? ha'

namespace Schema

variable {s : Schema} {t a o x role : TypeId} {i j k : Nat} {ignored : Option (TypeId × TypeId)}
  {decl decl' : OwnershipDecl}

/-! ## Steps up a line -/

/-- going up `k` steps from `t` one gets to `a` -/
def StepsAbove (s : Schema) (k : Nat) (t a : TypeId) : Prop :=
  (s.hierarchyOf t).contains t ∧ (s.hierarchyOf t).ancestor? k t = some a

section Forests

variable (hf : ∀ b, (s.forest b).Forest)

include hf

theorem stepsAbove_iff : s.StepsAbove k t a ↔ (s.supertypes t)[k]? = some a := by
  have hft : (s.hierarchyOf t).Forest := hf _
  by_cases ht : (s.hierarchyOf t).contains t
  · rw [StepsAbove, supertypes, Hierarchy.getElem?_supertypes hft ht, and_iff_right ht]
  · simp [StepsAbove, supertypes, Hierarchy.supertypes_of_not_contains ht, ht]

theorem mem_supertypes_iff_steps : a ∈ s.supertypes t ↔ ∃ k, s.StepsAbove k t a := by
  simp only [List.mem_iff_getElem?, stepsAbove_iff hf]

end Forests

/-! ## Ownership -/

/-- the declaration lets instances of `o` hold attributes of `a`. It is made `i` steps above `o`, of an attribute type
`j` steps above `a`, and is not the one that is left out -/
structure Admits (s : Schema) (ignored : Option (TypeId × TypeId)) (o a : TypeId) (i j : Nat) (decl : OwnershipDecl) :
    Prop where
  owner : s.StepsAbove i o decl.owner
  owned : s.StepsAbove j a decl.owned
  declared : ∃ d, s.get? decl.owner = some d ∧ d.owns[decl.owned]? = some decl.ownership
  heeded : some (decl.owner, decl.owned) ≠ ignored

/-- no other declaration is fewer steps above the owner, or as many and fewer steps above the attribute type -/
def Nearest (s : Schema) (ignored : Option (TypeId × TypeId)) (o a : TypeId) (decl : OwnershipDecl) : Prop :=
  ∃ i j, s.Admits ignored o a i j decl ∧
    ∀ i' j' decl', s.Admits ignored o a i' j' decl' → i < i' ∨ i = i' ∧ j ≤ j'

/-- what `t` declares of `x`, unless it is left out -/
def declaration? (s : Schema) (ignored : Option (TypeId × TypeId)) (t x : TypeId) : Option OwnershipDecl :=
  if some (t, x) = ignored then none else ((s.get? t).bind fun d => d.owns[x]?).map fun w => ⟨t, x, w⟩

theorem declaration?_eq_some : s.declaration? ignored t x = some decl ↔ t = decl.owner ∧ x = decl.owned ∧
    (∃ d, s.get? t = some d ∧ d.owns[x]? = some decl.ownership) ∧ some (t, x) ≠ ignored := by
  obtain ⟨t', x', w⟩ := decl
  unfold declaration?
  split
  · simp [*]
  · simp only [Option.map_eq_some_iff, Option.bind_eq_some_iff, OwnershipDecl.mk.injEq, ne_eq, *, not_false_eq_true,
      and_true]
    constructor
    · rintro ⟨w', hw, rfl, rfl, rfl⟩
      exact ⟨rfl, rfl, hw⟩
    · rintro ⟨rfl, rfl, hw⟩
      exact ⟨w, hw, rfl, rfl, rfl⟩

/-- the walk along two lines, declarer by declarer -/
theorem ownershipWithout_eq (s : Schema) (ignored : Option (TypeId × TypeId)) (o a : TypeId) :
    s.ownershipWithout ignored o a =
      (s.supertypes o).findSome? fun t => (s.supertypes a).findSome? fun x => s.declaration? ignored t x := by
  rw [ownershipWithout, lineage, ← List.head?_filterMap, List.filterMap_filterMap, List.head?_filterMap]
  congr 1
  funext t
  cases hd : s.get? t with
  | none => exact (List.findSome?_eq_none_iff.2 fun x _ => by simp [declaration?, hd]).symm
  | some d => simp [declaration?, hd]

theorem Admits.declaration? (h : s.Admits ignored o a i j decl) :
    s.declaration? ignored decl.owner decl.owned = some decl :=
  declaration?_eq_some.2 ⟨rfl, rfl, h.declared, h.heeded⟩

/-- there is at most one nearest declaration -/
theorem Nearest.unique (h : s.Nearest ignored o a decl) (h' : s.Nearest ignored o a decl') : decl = decl' := by
  obtain ⟨i, j, hp, hmin⟩ := h
  obtain ⟨i', j', hp', hmin'⟩ := h'
  have hle := hmin i' j' decl' hp'
  have hle' := hmin' i j decl hp
  obtain rfl : i = i' := by omega
  obtain rfl : j = j' := by omega
  have howner : decl.owner = decl'.owner := Option.some.inj (hp.owner.2.symm.trans hp'.owner.2)
  have howned : decl.owned = decl'.owned := Option.some.inj (hp.owned.2.symm.trans hp'.owned.2)
  have hdecl := hp.declaration?
  rw [howner, howned] at hdecl
  exact Option.some.inj (hdecl.symm.trans hp'.declaration?)

section Forests

variable (hf : ∀ b, (s.forest b).Forest)

include hf

theorem nearest_of_ownershipWithout (h : s.ownershipWithout ignored o a = some decl) : s.Nearest ignored o a decl := by
  rw [ownershipWithout_eq] at h
  obtain ⟨i, t, hi, ht, hbefore⟩ := first_of_findSome? h
  obtain ⟨j, x, hj, hx, hearlier⟩ := first_of_findSome? ht
  obtain ⟨rfl, rfl, hdeclared, hheeded⟩ := declaration?_eq_some.1 hx
  refine ⟨i, j, ⟨(stepsAbove_iff hf).2 hi, (stepsAbove_iff hf).2 hj, hdeclared, hheeded⟩, fun i' j' decl' hp => ?_⟩
  have hi' := (stepsAbove_iff hf).1 hp.owner
  have hj' := (stepsAbove_iff hf).1 hp.owned
  -- at all places before `i`, and at place `i` before `j`, the walk has found nothing
  rcases Nat.lt_trichotomy i i' with hlt | rfl | hlt
  · exact Or.inl hlt
  · refine Or.inr ⟨rfl, Nat.le_of_not_lt fun hlt => ?_⟩
    have hnone := hearlier j' _ hlt hj'
    rw [Option.some.inj (hi.symm.trans hi'), hp.declaration?] at hnone
    simp at hnone
  · have hnone := List.findSome?_eq_none_iff.1 (hbefore i' _ hlt hi') _ (List.mem_of_getElem? hj')
    rw [hp.declaration?] at hnone
    simp at hnone

/-- **Nothing is found** only where nothing is declared, but for what is left out. -/
theorem ownershipWithout_eq_none :
    s.ownershipWithout ignored o a = none ↔ ∀ i j decl, ¬ s.Admits ignored o a i j decl := by
  simp only [ownershipWithout_eq, List.findSome?_eq_none_iff]
  constructor
  · intro h i j decl hp
    have hnone := h _ (List.mem_of_getElem? ((stepsAbove_iff hf).1 hp.owner)) _
      (List.mem_of_getElem? ((stepsAbove_iff hf).1 hp.owned))
    rw [hp.declaration?] at hnone
    simp at hnone
  · intro h t ht x hx
    by_contra hsome
    obtain ⟨decl, hdecl⟩ := Option.ne_none_iff_exists'.1 hsome
    obtain ⟨rfl, rfl, hdeclared, hheeded⟩ := declaration?_eq_some.1 hdecl
    obtain ⟨i, hi⟩ := (mem_supertypes_iff_steps hf).1 ht
    obtain ⟨j, hj⟩ := (mem_supertypes_iff_steps hf).1 hx
    exact h i j decl ⟨hi, hj, hdeclared, hheeded⟩

/-- **The nearest declaration** is found, and no other one. -/
theorem ownershipWithout_eq_some : s.ownershipWithout ignored o a = some decl ↔ s.Nearest ignored o a decl := by
  refine ⟨nearest_of_ownershipWithout hf, fun h => ?_⟩
  cases hfound : s.ownershipWithout ignored o a with
  | none =>
    obtain ⟨i, j, hp, -⟩ := h
    exact absurd hp ((ownershipWithout_eq_none hf).1 hfound i j decl)
  | some decl' => rw [(nearest_of_ownershipWithout hf hfound).unique h]

end Forests

/-! ## Owned attribute types -/

/-- one more declaration in the table of owned attribute types -/
def noteOwned (owned : ExtTreeMap TypeId Ownership) (e : TypeId × Ownership) : ExtTreeMap TypeId Ownership :=
  owned.alter e.1 fun w => some ((w.getD e.2).join e.2)

theorem ownedAttributes_eq (s : Schema) (t : TypeId) :
    s.ownedAttributes t = ((s.lineage t).flatMap fun a => a.2.owns.toList).foldl noteOwned ∅ := by
  rw [ownedAttributes, List.foldl_flatMap]
  rfl

theorem getElem?_noteOwned (owned : ExtTreeMap TypeId Ownership) (e : TypeId × Ownership) (x : TypeId) :
    (noteOwned owned e)[x]? = if x = e.1 then some ((owned[x]?.getD e.2).join e.2) else owned[x]? := by
  rw [noteOwned, ExtTreeMap.getElem?_alter]
  simp only [compare_iff]
  split
  · rename_i hx
    rw [hx]
  · rfl

/-- a type is listed if it is in one of the declarations -/
theorem mem_foldl_noteOwned {es : List (TypeId × Ownership)} {owned : ExtTreeMap TypeId Ownership} :
    (es.foldl noteOwned owned)[x]?.isSome ↔ owned[x]?.isSome ∨ ∃ e ∈ es, e.1 = x := by
  induction es generalizing owned with
  | nil => simp
  | cons e es ih =>
    rw [List.foldl_cons, ih, getElem?_noteOwned]
    by_cases hx : x = e.1
    · simp [hx]
    · simp [hx, Ne.symm hx]

/-- a type is listed as a key if it is one in one of the declarations, nearest or not -/
theorem key_foldl_noteOwned {es : List (TypeId × Ownership)} {owned : ExtTreeMap TypeId Ownership} :
    (es.foldl noteOwned owned)[x]? = some Ownership.key ↔ owned[x]? = some Ownership.key ∨ (x, Ownership.key) ∈ es := by
  induction es generalizing owned with
  | nil => simp
  | cons e es ih =>
    obtain ⟨y, w⟩ := e
    rw [List.foldl_cons, ih, getElem?_noteOwned, List.mem_cons, ← or_assoc]
    refine or_congr_left ?_
    by_cases hx : x = y
    · subst hx
      cases w <;> cases hold : owned[x]? with
      | none => simp [Ownership.join, Ownership.isKey]
      | some v => cases v <;> simp [Ownership.join, Ownership.isKey]
    · simp [hx]

theorem mem_ownedAttributes : x ∈ s.ownedAttributes t ↔ ∃ a ∈ s.supertypes t, s.DeclaresOwns a x := by
  calc x ∈ s.ownedAttributes t
      ↔ ∃ e ∈ (s.lineage t).flatMap fun a => a.2.owns.toList, e.1 = x := by
        rw [ExtTreeMap.mem_iff_isSome_getElem?, ownedAttributes_eq, mem_foldl_noteOwned]
        simp
    _ ↔ ∃ e ∈ s.lineage t, x ∈ e.2.owns := by
        simp only [List.mem_flatMap, ExtTreeMap.mem_iff_isSome_getElem?, Option.isSome_iff_exists]
        constructor
        · rintro ⟨⟨y, w⟩, ⟨e, he, hw⟩, rfl⟩
          exact ⟨e, he, w, ExtTreeMap.mem_toList_iff_getElem?_eq_some.1 hw⟩
        · rintro ⟨e, he, w, hw⟩
          exact ⟨(x, w), ⟨e, he, ExtTreeMap.mem_toList_iff_getElem?_eq_some.2 hw⟩, rfl⟩
    _ ↔ ∃ a ∈ s.supertypes t, s.DeclaresOwns a x := exists_lineage (P := fun d => x ∈ d.owns)

theorem key_ownedAttributes : (s.ownedAttributes t)[x]? = some .key ↔ ∃ a ∈ s.supertypes t, s.DeclaresKey a x := by
  calc (s.ownedAttributes t)[x]? = some .key
      ↔ ∃ e ∈ s.lineage t, e.2.owns[x]? = some .key := by
        rw [ownedAttributes_eq, key_foldl_noteOwned]
        simp [ExtTreeMap.mem_toList_iff_getElem?_eq_some]
    _ ↔ ∃ a ∈ s.supertypes t, s.DeclaresKey a x := exists_lineage (P := fun d => d.owns[x]? = some .key)

/-! ## Roles -/

theorem mem_playableRoles : role ∈ s.playableRoles t ↔ s.playsRole t role := by
  rw [playableRoles, mem_foldl_insertMany, playsRole_iff]
  simp only [ExtTreeSet.not_mem_empty, false_or, ExtTreeSet.mem_toList]
  exact exists_lineage (P := fun d => role ∈ d.plays)

theorem mem_relatedRoles : role ∈ s.relatedRoles t ↔ s.relatesRole t role := by
  have hlisted : ∀ d : TypeDef, role ∈ (d.relates?.map (·.toList)).getD [] ↔ d.relatesRole role := by
    intro d
    rw [TypeDef.relatesRole]
    cases d.relates? with
    | none => simp
    | some roles => simp
  rw [relatedRoles, mem_foldl_insertMany, relatesRole_iff]
  simp only [ExtTreeSet.not_mem_empty, false_or, hlisted]
  exact exists_lineage (P := fun d => d.relatesRole role)

section Forests

variable (hf : ∀ b, (s.forest b).Forest)

include hf

/-- nobody on the line declares it but the one that is left out -/
theorem none_other_iff {D : TypeId → Prop} :
    (¬ ∃ b ∈ s.supertypes t, some (b, role) ≠ some (a, role) ∧ D b) ↔
      ∀ k b, s.StepsAbove k t b → b ≠ a → ¬ D b := by
  simp only [mem_supertypes_iff_steps hf, not_exists, not_and, ne_eq, Option.some.injEq, Prod.mk.injEq, and_true]
  exact ⟨fun h k b hb => h b ⟨k, hb⟩, fun h b ⟨k, hb⟩ => h k b hb⟩

theorem playsWithout_eq_false : s.playsWithout (some (a, role)) t role = false ↔
    ∀ k b, s.StepsAbove k t b → b ≠ a → ¬ s.DeclaresPlays b role := by
  rw [← Bool.not_eq_true, playsWithout_iff]
  exact none_other_iff hf

theorem relatesWithout_eq_false : s.relatesWithout (some (a, role)) t role = false ↔
    ∀ k b, s.StepsAbove k t b → b ≠ a → ¬ s.DeclaresRelates b role := by
  rw [← Bool.not_eq_true, relatesWithout_iff]
  exact none_other_iff hf

end Forests

end Schema

/-! ## States -/

namespace State

variable {x : State} {t a : TypeId}

theorem mem_keys : a ∈ x.keys t ↔ ∃ decl ∈ x.schema.keyDeclarations t, decl.owned = a := by
  rw [keys, ExtTreeSet.mem_ofList]
  simp

theorem mem_keys_iff_declared : a ∈ x.keys t ↔ ∃ b ∈ x.schema.supertypes t, x.schema.DeclaresKey b a := by
  simp only [mem_keys, Schema.mem_keyDeclarations]
  constructor
  · rintro ⟨decl, ⟨hb, hkey, -⟩, rfl⟩
    exact ⟨decl.owner, hb, hkey⟩
  · rintro ⟨b, hb, hkey⟩
    exact ⟨⟨b, a, .key⟩, ⟨hb, hkey, rfl⟩, rfl⟩

/-- the nearest declaration of ownership is the one that counts, and all ways to read declarations agree -/
structure Inherits (x : State) : Prop where
  nearest : ∀ ignored o a decl,
    x.schema.ownershipWithout ignored o a = some decl ↔ x.schema.Nearest ignored o a decl
  missing : ∀ ignored o a,
    x.schema.ownershipWithout ignored o a = none ↔ ∀ i j decl, ¬ x.schema.Admits ignored o a i j decl
  ownership : ∀ o a, (x.schema.ownership? o a).isSome ↔
    ∃ k b, x.schema.StepsAbove k a b ∧ b ∈ x.schema.ownedAttributes o
  keys : ∀ o a, a ∈ x.keys o ↔ (x.schema.ownedAttributes o)[a]? = some .key
  keyDeclarations : ∀ o a, a ∈ x.keys o ↔ ∃ decl ∈ x.schema.keyDeclarations o, decl.owned = a
  plays : ∀ t role, role ∈ x.schema.playableRoles t ↔ x.schema.playsRole t role
  relates : ∀ t role, role ∈ x.schema.relatedRoles t ↔ x.schema.relatesRole t role
  playsMasked : ∀ d t role, x.schema.playsWithout (some (d, role)) t role = false ↔
    ∀ k b, x.schema.StepsAbove k t b → b ≠ d → ¬ x.schema.DeclaresPlays b role
  relatesMasked : ∀ d t role, x.schema.relatesWithout (some (d, role)) t role = false ↔
    ∀ k b, x.schema.StepsAbove k t b → b ≠ d → ¬ x.schema.DeclaresRelates b role

/-- **What types inherit** is read in the same way everywhere, as soon as the supertypes form forests. -/
theorem inherits (hf : ∀ b, (x.schema.forest b).Forest) : x.Inherits where
  nearest _ _ _ _ := Schema.ownershipWithout_eq_some hf
  missing _ _ _ := Schema.ownershipWithout_eq_none hf
  ownership o a := by
    simp only [Schema.ownership?_isSome, Schema.mem_ownedAttributes, Schema.mem_supertypes_iff_steps hf]
    constructor
    · rintro ⟨d, hd, b, ⟨k, hb⟩, hown⟩
      exact ⟨k, b, hb, d, hd, hown⟩
    · rintro ⟨k, b, hb, d, hd, hown⟩
      exact ⟨d, hd, b, ⟨k, hb⟩, hown⟩
  keys o a := mem_keys_iff_declared.trans Schema.key_ownedAttributes.symm
  keyDeclarations _ _ := mem_keys
  plays _ _ := Schema.mem_playableRoles
  relates _ _ := Schema.mem_relatedRoles
  playsMasked _ _ _ := Schema.playsWithout_eq_false hf
  relatesMasked _ _ _ := Schema.relatesWithout_eq_false hf

end State

namespace Session

variable {config : SessionConfig} {ids : Option IdSource} {journal : Option Journal} {s : Session} {es : List Event}

/-- **In every state that a session gets to,** declarations resolve nearest first, and all reads of them agree. -/
theorem run_inherits (hs : start config ids journal = .ok s) (es : List Event) :
    (s.run es).Everywhere State.Inherits :=
  (run_forests hs (List.prefix_refl es)).imp fun _ => State.inherits

/-- a person has a key, which an adult has as any other name, and a nickname is a name -/
def adultNames : List Event :=
  [.begin, .perform (.putEntityType "person"), .perform (.putAttributeType "name" (some .string)),
    .perform (.key ⟨6⟩ ⟨7⟩), .perform (.putEntityType "adult"), .perform (.setSupertype ⟨11⟩ ⟨6⟩),
    .perform (.has ⟨11⟩ ⟨7⟩), .perform (.putAttributeType "nickname" (some .string)),
    .perform (.setSupertype ⟨12⟩ ⟨7⟩)]

theorem adultNames_inherited : (blank.run adultNames).Everywhere State.Inherits ∧
    ∃ t, (blank.run adultNames).writer = some t ∧
      t.working.schema.Nearest none ⟨11⟩ ⟨12⟩ ⟨⟨11⟩, ⟨7⟩, .has⟩ ∧
      t.working.schema.Nearest (some (⟨11⟩, ⟨7⟩)) ⟨11⟩ ⟨12⟩ ⟨⟨6⟩, ⟨7⟩, .key⟩ ∧ ⟨7⟩ ∈ t.working.keys ⟨11⟩ := by
  have hall := run_inherits start_testing adultNames
  have hreads : (blank.run adultNames).writer.map (fun t => (t.working.schema.ownershipWithout none ⟨11⟩ ⟨12⟩,
      t.working.schema.ownershipWithout (some (⟨11⟩, ⟨7⟩)) ⟨11⟩ ⟨12⟩,
      (t.working.schema.ownedAttributes ⟨11⟩)[(⟨7⟩ : TypeId)]?)) =
      some (some ⟨⟨11⟩, ⟨7⟩, .has⟩, some ⟨⟨6⟩, ⟨7⟩, .key⟩, some .key) := by decide +kernel
  obtain ⟨t, hw, ht⟩ := Option.map_eq_some_iff.1 hreads
  simp only [Prod.mk.injEq] at ht
  have hinherits := (hall.writer t hw).working
  exact ⟨hall, t, hw, (hinherits.nearest _ _ _ _).1 ht.1, (hinherits.nearest _ _ _ _).1 ht.2.1,
    (hinherits.keys _ _).2 ht.2.2⟩

end Session

end ConceptGraph
