/-
What an element may do, read off what it and its ancestors declare. Each walk of the resolution finds something exactly
if some ancestor declares it, so that a schema with more declarations, or with more ancestors, permits more.

- `playsWithout_iff`, `relatesWithout_iff`, `ownershipWithout_isSome`: permissions as the existence of a declaration.
- `Agreeing`: the data types declared along a walk upwards are equal. Then which one is nearest does not matter
  (`dataType?_eq_some`).
- `mem_instances`: the instances of a type are those whose type has it above.
-/
import ConceptGraph.Proofs.Graph.Indexes
import ConceptGraph.Proofs.Schema.Indexes
import ConceptGraph.State.Basic

namespace ConceptGraph

open Std

namespace Schema

variable {s s' : Schema} {t a role owned : TypeId} {d : TypeDef}

/-! ## What an element declares itself -/

def declaredDataType? (s : Schema) (t : TypeId) : Option DataType := (s.get? t).bind TypeDef.dataType?

def declaredRegex? (s : Schema) (t : TypeId) : Option Pattern := (s.get? t).bind TypeDef.regex?

def DeclaresPlays (s : Schema) (t role : TypeId) : Prop := ∃ d, s.get? t = some d ∧ role ∈ d.plays

def DeclaresRelates (s : Schema) (t role : TypeId) : Prop := ∃ d, s.get? t = some d ∧ d.relatesRole role

def DeclaresOwns (s : Schema) (t owned : TypeId) : Prop := ∃ d, s.get? t = some d ∧ owned ∈ d.owns

/-! ## Permissions -/

theorem mem_lineage : (a, d) ∈ s.lineage t ↔ a ∈ s.supertypes t ∧ s.get? a = some d := by
  simp only [lineage, List.mem_filterMap, Option.map_eq_some_iff, Prod.mk.injEq]
  constructor
  · rintro ⟨b, hb, e, he, rfl, rfl⟩
    exact ⟨hb, he⟩
  · rintro ⟨ha, hd⟩
    exact ⟨a, ha, d, hd, rfl, rfl⟩

/-- a walk that passes over some elements meets the definitions of the others on the line -/
theorem exists_lineage_where {Q : TypeId → Prop} {P : TypeDef → Prop} :
    (∃ e ∈ s.lineage t, Q e.1 ∧ P e.2) ↔ ∃ a ∈ s.supertypes t, Q a ∧ ∃ d, s.get? a = some d ∧ P d := by
  constructor
  · rintro ⟨⟨a, d⟩, he, ha, hd⟩
    obtain ⟨hmem, hget⟩ := mem_lineage.1 he
    exact ⟨a, hmem, ha, d, hget, hd⟩
  · rintro ⟨a, hmem, ha, d, hget, hd⟩
    exact ⟨(a, d), mem_lineage.2 ⟨hmem, hget⟩, ha, hd⟩

theorem exists_lineage {P : TypeDef → Prop} :
    (∃ e ∈ s.lineage t, P e.2) ↔ ∃ a ∈ s.supertypes t, ∃ d, s.get? a = some d ∧ P d := by
  simpa only [true_and] using exists_lineage_where (s := s) (Q := fun _ => True) (P := P)

theorem playsWithout_iff {ignored : Option (TypeId × TypeId)} : s.playsWithout ignored t role ↔
    ∃ a ∈ s.supertypes t, some (a, role) ≠ ignored ∧ s.DeclaresPlays a role := by
  simp only [playsWithout, List.any_eq_true, Bool.and_eq_true, bne_iff_ne, ExtTreeSet.contains_iff_mem]
  exact exists_lineage_where (Q := fun a => some (a, role) ≠ ignored) (P := fun d => role ∈ d.plays)

theorem playsRole_iff : s.playsRole t role ↔ ∃ a ∈ s.supertypes t, s.DeclaresPlays a role := by
  simp [playsRole, playsWithout_iff]

theorem relatesWithout_iff {ignored : Option (TypeId × TypeId)} : s.relatesWithout ignored t role ↔
    ∃ a ∈ s.supertypes t, some (a, role) ≠ ignored ∧ s.DeclaresRelates a role := by
  simp only [relatesWithout, List.any_eq_true, Bool.and_eq_true, bne_iff_ne]
  exact exists_lineage_where (Q := fun a => some (a, role) ≠ ignored) (P := fun d => d.relatesRole role)

theorem relatesRole_iff : s.relatesRole t role ↔ ∃ a ∈ s.supertypes t, s.DeclaresRelates a role := by
  simp [relatesRole, relatesWithout_iff]

theorem ownershipWithout_sound {ignored : Option (TypeId × TypeId)} {decl : OwnershipDecl}
    (h : s.ownershipWithout ignored t owned = some decl) : decl.owner ∈ s.supertypes t ∧
      decl.owned ∈ s.supertypes owned ∧ some (decl.owner, decl.owned) ≠ ignored ∧ s.DeclaresOwns decl.owner decl.owned := by
  obtain ⟨⟨a, d⟩, ha, hf⟩ := List.exists_of_findSome?_eq_some h
  obtain ⟨c, hc, hdecl⟩ := List.exists_of_findSome?_eq_some hf
  obtain ⟨hat, had⟩ := mem_lineage.1 ha
  split at hdecl
  · simp at hdecl
  · rename_i hne
    obtain ⟨o, ho, rfl⟩ := Option.map_eq_some_iff.1 hdecl
    exact ⟨hat, hc, hne, d, had, ExtTreeMap.mem_iff_isSome_getElem?.2 (by rw [ho]; rfl)⟩

theorem ownershipWithout_isSome {ignored : Option (TypeId × TypeId)} :
    (s.ownershipWithout ignored t owned).isSome ↔ ∃ a ∈ s.supertypes t, ∃ c ∈ s.supertypes owned,
      some (a, c) ≠ ignored ∧ s.DeclaresOwns a c := by
  constructor
  · intro h
    obtain ⟨decl, hdecl⟩ := Option.isSome_iff_exists.1 h
    obtain ⟨ha, hc, hne, hd⟩ := ownershipWithout_sound hdecl
    exact ⟨_, ha, _, hc, hne, hd⟩
  · rintro ⟨a, ha, c, hc, hne, d, hd, howns⟩
    obtain ⟨o, ho⟩ := Option.isSome_iff_exists.1 (ExtTreeMap.mem_iff_isSome_getElem?.1 howns)
    refine List.findSome?_isSome_iff.2 ⟨(a, d), mem_lineage.2 ⟨ha, hd⟩, ?_⟩
    refine List.findSome?_isSome_iff.2 ⟨c, hc, ?_⟩
    simp [hne, ho]

theorem ownership?_isSome : (s.ownership? t owned).isSome ↔
    ∃ a ∈ s.supertypes t, ∃ c ∈ s.supertypes owned, s.DeclaresOwns a c := by
  simp [ownership?, ownershipWithout_isSome]

theorem mem_patterns {p : Pattern} : (a, p) ∈ s.patterns t ↔ a ∈ s.supertypes t ∧ s.declaredRegex? a = some p := by
  simp only [patterns, List.mem_filterMap, Prod.exists, mem_lineage, Option.map_eq_some_iff, Prod.mk.injEq]
  constructor
  · rintro ⟨b, e, ⟨hb, he⟩, q, hq, rfl, rfl⟩
    exact ⟨hb, by rw [declaredRegex?, he, Option.bind_some, hq]⟩
  · rintro ⟨ha, hp⟩
    obtain ⟨e, he, hq⟩ := Option.bind_eq_some_iff.1 hp
    exact ⟨a, e, ⟨ha, he⟩, p, hq, rfl, rfl⟩

/-! ## Data types -/

/-- the data types declared along any walk upwards are equal -/
def Agreeing (s : Schema) : Prop := ∀ t a b v w, a ∈ s.supertypes t → b ∈ s.supertypes t →
  s.declaredDataType? a = some v → s.declaredDataType? b = some w → v = w

theorem dataType?_sound {v : DataType} (h : s.dataType? t = some v) :
    ∃ a ∈ s.supertypes t, s.declaredDataType? a = some v := by
  obtain ⟨⟨a, d⟩, ha, hv⟩ := List.exists_of_findSome?_eq_some h
  obtain ⟨hat, had⟩ := mem_lineage.1 ha
  exact ⟨a, hat, by rw [declaredDataType?, had]; exact hv⟩

theorem dataType?_isSome {v : DataType} (ha : a ∈ s.supertypes t) (hv : s.declaredDataType? a = some v) :
    ∃ w, s.dataType? t = some w := by
  obtain ⟨d, hd, hdv⟩ := Option.bind_eq_some_iff.1 hv
  refine Option.isSome_iff_exists.1 (List.findSome?_isSome_iff.2 ⟨(a, d), mem_lineage.2 ⟨ha, hd⟩, ?_⟩)
  rw [hdv]
  rfl

/-- where declarations agree, each of them is the one that counts -/
theorem Agreeing.dataType?_eq_some (h : s.Agreeing) {v : DataType} :
    s.dataType? t = some v ↔ ∃ a ∈ s.supertypes t, s.declaredDataType? a = some v := by
  refine ⟨dataType?_sound, ?_⟩
  rintro ⟨a, ha, hv⟩
  obtain ⟨w, hw⟩ := dataType?_isSome ha hv
  obtain ⟨b, hb, hbw⟩ := dataType?_sound hw
  rw [hw, h t a b v w ha hb hv hbw]

/-- the data type of an element is its own, or else that of its direct supertype -/
theorem Indexed.dataType?_eq (h : s.Indexed) (hd : s.get? t = some d) :
    s.dataType? t = d.dataType?.or ((s.directSupertype? t).bind s.dataType?) := by
  have hl : s.lineage t = (t, d) :: (s.directSupertype? t).elim [] s.lineage := by
    rw [lineage, h.supertypes_eq hd, List.filterMap_cons, hd]
    cases s.directSupertype? t <;> rfl
  rw [dataType?, hl, List.findSome?_cons]
  cases hv : d.dataType? with
  | some v => rfl
  | none =>
    cases s.directSupertype? t <;> rfl

end Schema

/-! ## Instances of a type -/

namespace State

variable {s : State} {t : TypeId} {id : ThingId} {th : Thing}

theorem mem_instances (hs : s.schema.Indexed) (hg : s.graph.Indexed) :
    (id, th) ∈ s.instances t ↔ s.graph.get? id = some th ∧ t ∈ s.schema.supertypes th.type := by
  simp only [instances, List.mem_flatMap, Graph.mem_ofType hg, hs.mem_subtypes]
  constructor
  · rintro ⟨a, ha, hth, rfl⟩
    exact ⟨hth, ha⟩
  · rintro ⟨hth, ht⟩
    exact ⟨th.type, ht, hth, rfl⟩

theorem hasInstances_iff (hs : s.schema.Indexed) (hg : s.graph.Indexed) :
    s.hasInstances t ↔ ∃ id b, s.graph.bare? id = some b ∧ t ∈ s.schema.supertypes b.type := by
  simp only [hasInstances, List.any_eq_true, decide_eq_true_eq, Graph.countOfType_pos hg, hs.mem_subtypes]
  constructor
  · rintro ⟨a, ha, id, b, hb, rfl⟩
    exact ⟨id, b, hb, ha⟩
  · rintro ⟨id, b, hb, ht⟩
    exact ⟨b.type, ht, id, b, hb, rfl⟩

/-- a type with instances is below such types -/
theorem hasInstances_above {a : TypeId} (hs : s.schema.Indexed) (hg : s.graph.Indexed)
    (ha : a ∈ s.schema.supertypes t) (h : s.hasInstances t) : s.hasInstances a := by
  obtain ⟨id, b, hb, ht⟩ := (hasInstances_iff hs hg).1 h
  exact (hasInstances_iff hs hg).2 ⟨id, b, hb, hs.supertypes_trans ht ha⟩

end State

end ConceptGraph
