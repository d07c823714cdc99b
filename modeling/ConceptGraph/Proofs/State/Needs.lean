/-
What instances need of the declarations that can be withdrawn. An instance needs that its type, or one above it, lets it
play a role, have players in it or hold an attribute, if it does so and nothing else that applies to it lets it.

- `NeedsPlays`, `NeedsRelates`, `NeedsOwns`: some instance needs the declaration.
- `checkUnplay_decides`, `checkUnrelate_decides`, `checkUnhas_decides`: the rules refuse to withdraw exactly what is
  needed.
-/
import ConceptGraph.Proofs.State.GraphSteps
import ConceptGraph.Rules.Declaration
import ConceptGraph.State.Reads

namespace ConceptGraph

open Std

namespace State

variable {s : State} {first : UInt64} {n : Nat} {t role owned : TypeId} {d e : TypeDef}

/-! ## Needs -/

/-- an instance of the type plays the role, and no other type above it lets it -/
def NeedsPlays (s : State) (t role : TypeId) : Prop := s.schema.DeclaresPlays t role ∧
  ∃ x th r, s.graph.get? x = some th ∧ t ∈ s.schema.supertypes th.type ∧ s.graph.Plays r role x ∧
    ∀ b ∈ s.schema.supertypes th.type, s.schema.DeclaresPlays b role → b = t

/-- an instance of the type has a player in the role, and no other type above it lets it -/
def NeedsRelates (s : State) (t role : TypeId) : Prop := s.schema.DeclaresRelates t role ∧
  ∃ r th p, s.graph.get? r = some th ∧ t ∈ s.schema.supertypes th.type ∧ s.graph.Plays r role p ∧
    ∀ b ∈ s.schema.supertypes th.type, s.schema.DeclaresRelates b role → b = t

/-- an instance of the type holds an attribute of the attribute type, and no other two types above them let it -/
def NeedsOwns (s : State) (t owned : TypeId) : Prop := s.schema.DeclaresOwns t owned ∧
  ∃ x th a tha, s.graph.get? x = some th ∧ t ∈ s.schema.supertypes th.type ∧ a ∈ s.attributesOf x ∧
    s.graph.get? a = some tha ∧ owned ∈ s.schema.supertypes tha.type ∧
    ∀ b ∈ s.schema.supertypes th.type, ∀ c ∈ s.schema.supertypes tha.type, s.schema.DeclaresOwns b c →
      b = t ∧ c = owned

/-! ## What else allows it -/

variable {x y : TypeId}

theorem playsWithout_eq_false_iff : s.schema.playsWithout (some (t, role)) x role = false ↔
    ∀ b ∈ s.schema.supertypes x, s.schema.DeclaresPlays b role → b = t := by
  rw [Bool.eq_false_iff, ne_eq, Schema.playsWithout_iff]
  simp only [not_exists, not_and, ne_eq, Option.some.injEq, Prod.mk.injEq, and_true, not_imp_not]

theorem relatesWithout_eq_false_iff : s.schema.relatesWithout (some (t, role)) x role = false ↔
    ∀ b ∈ s.schema.supertypes x, s.schema.DeclaresRelates b role → b = t := by
  rw [Bool.eq_false_iff, ne_eq, Schema.relatesWithout_iff]
  simp only [not_exists, not_and, ne_eq, Option.some.injEq, Prod.mk.injEq, and_true, not_imp_not]

theorem ownershipWithout_eq_none_iff : s.schema.ownershipWithout (some (t, owned)) x y = none ↔
    ∀ b ∈ s.schema.supertypes x, ∀ c ∈ s.schema.supertypes y, s.schema.DeclaresOwns b c → b = t ∧ c = owned := by
  rw [← Option.not_isSome_iff_eq_none, Schema.ownershipWithout_isSome]
  simp only [not_exists, not_and, ne_eq, not_imp_not]
  simp only [Option.some.injEq, Prod.mk.injEq]

/-! ## Rules -/

theorem mem_attributesOf {x held : ThingId} : held ∈ s.attributesOf x ↔ ∃ e ∈ s.ownershipsOf x, e.held = held := by
  rw [attributesOf, inOrder, List.mem_mergeSort, List.mem_map]

/-- who reports only that something is in use reports nothing else -/
theorem isViolation_of_inUse {c : Prop} [Decidable c] {message : String} {id : ThingId} {err : ConceptError}
    (hf : (if c then some (inUse message t id) else none) = some err) : err.isViolation .inUseConstraint := by
  simp only [Option.ite_none_right_eq_some, Option.some.injEq] at hf
  obtain ⟨-, rfl⟩ := hf
  rfl

section Sound

variable (h : s.Sound first n)

include h

theorem any_role_iff {x : ThingId} :
    (s.graph.relationsOf x).any (·.role == role) ↔ ∃ r, s.graph.Plays r role x := by
  simp only [List.any_eq_true, beq_iff_eq, Graph.mem_relationsOf h.indexed]
  constructor
  · rintro ⟨⟨r, _⟩, hplays, rfl⟩
    exact ⟨r, hplays⟩
  · rintro ⟨r, hplays⟩
    exact ⟨⟨r, role⟩, hplays, rfl⟩

theorem checkUnplay_decides (he : s.Editable t d) (hkind : d.kind ≠ .role) (hr : s.Editable role e)
    (hrole : e.kind = .role) : Decides (s.checkUnplay t role) .inUseConstraint (s.NeedsPlays t role) := by
  rw [checkUnplay, editableThingType_eq_ok.2 ⟨he, hkind⟩, editable_eq_ok.2 ⟨hr, hrole⟩]
  refine (Decides.guarded (checkEach_decides fun i _ err hf => isViolation_of_inUse hf)).congr (and_congr ?_ ?_)
  · simp [Schema.DeclaresPlays, he.1]
  · simp only [Prod.exists, mem_instances h.coherent.indexed h.indexed, ne_eq, ite_eq_right_iff, reduceCtorEq, imp_false,
      not_not, Bool.and_eq_true, Bool.not_eq_true', playsWithout_eq_false_iff, any_role_iff h, and_assoc,
      exists_and_left, exists_and_right]

theorem checkUnrelate_decides (he : s.Editable t d) (hkind : d.kind = .relation) (hr : s.Editable role e)
    (hrole : e.kind = .role) : Decides (s.checkUnrelate t role) .inUseConstraint (s.NeedsRelates t role) := by
  rw [checkUnrelate, editable_eq_ok.2 ⟨he, hkind⟩, editable_eq_ok.2 ⟨hr, hrole⟩]
  refine (Decides.guarded (checkEach_decides fun i _ err hf => isViolation_of_inUse hf)).congr (and_congr ?_ ?_)
  · simp [Schema.DeclaresRelates, he.1]
  · simp only [Prod.exists, mem_instances h.coherent.indexed h.indexed, ne_eq, ite_eq_right_iff, reduceCtorEq, imp_false,
      not_not, Bool.and_eq_true, Bool.not_eq_true', List.isEmpty_eq_false_iff_exists_mem, Thing.mem_playersOf,
      relatesWithout_eq_false_iff, and_assoc]
    refine exists_congr fun r => exists_congr fun th => ?_
    constructor
    · rintro ⟨hth, ht, ⟨p, hp⟩, hall⟩
      exact ⟨p, hth, ht, (Graph.plays_iff hth).2 hp, hall⟩
    · rintro ⟨p, hth, ht, hp, hall⟩
      exact ⟨hth, ht, ⟨p, (Graph.plays_iff hth).1 hp⟩, hall⟩

theorem checkUnhas_decides (he : s.Editable t d) (hkind : d.kind ≠ .role) (ho : s.Editable owned e)
    (hk : e.kind = .attribute) : Decides (s.checkUnhas t owned) .inUseConstraint (s.NeedsOwns t owned) := by
  have hstored : ∀ x, ∀ edge ∈ s.ownershipsOf x, ∃ tha, s.graph.get? edge.held = some tha := by
    intro x edge hedge
    obtain ⟨-, q, hedge⟩ := (mem_ownershipsOf h.recorded h.indexed h.instances).1 hedge
    exact Graph.contains_iff_get?.1 (hedge.stored h).2.2
  rw [checkUnhas, editableThingType_eq_ok.2 ⟨he, hkind⟩, editable_eq_ok.2 ⟨ho, hk⟩]
  refine (Decides.guarded (checkEach_decides fun i _ err hf => ?_)).congr (and_congr ?_ ?_)
  · obtain ⟨edge, hedge, hf⟩ := List.exists_of_findSome?_eq_some hf
    obtain ⟨tha, htha⟩ := hstored _ edge hedge
    simp only [thing_eq_ok.2 htha] at hf
    exact isViolation_of_inUse hf
  · simp [Schema.DeclaresOwns, he.1]
  · simp only [Prod.exists, mem_instances h.coherent.indexed h.indexed, ← Option.isSome_iff_ne_none,
      List.findSome?_isSome_iff]
    refine exists_congr fun x => exists_congr fun th => ?_
    constructor
    · rintro ⟨⟨hth, ht⟩, edge, hedge, hf⟩
      obtain ⟨tha, htha⟩ := hstored _ edge hedge
      simp only [thing_eq_ok.2 htha, Option.isSome_ite, Bool.and_eq_true, Option.isNone_iff_eq_none,
        Schema.isSubtypeOf_iff, ownershipWithout_eq_none_iff] at hf
      exact ⟨edge.held, tha, hth, ht, mem_attributesOf.2 ⟨edge, hedge, rfl⟩, htha, hf⟩
    · rintro ⟨a, tha, hth, ht, ha, htha, hf⟩
      obtain ⟨edge, hedge, rfl⟩ := mem_attributesOf.1 ha
      refine ⟨⟨hth, ht⟩, edge, hedge, ?_⟩
      simp only [thing_eq_ok.2 htha, Option.isSome_ite, Bool.and_eq_true, Option.isNone_iff_eq_none,
        Schema.isSubtypeOf_iff, ownershipWithout_eq_none_iff]
      exact hf

end Sound

end State

end ConceptGraph
