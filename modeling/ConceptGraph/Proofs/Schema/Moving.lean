/-
An element under another supertype, and what everything below it inherits then.

- `Moves`: one element stands under another supertype, the rest is as it was.
- `Moves.mem_supertypes`: above what is below the element there is what stood between the two, and what is above the new
  supertype. Above everything else there is what there was (`Moves.supertypes_unmoved`).
- `InheritsThrough`: a type gets its data type, if it has one, from above the element.
- `Moves.dataType?_through`, `Moves.dataType?_kept`: such types get that of the new supertype; all others keep theirs.
-/
import ConceptGraph.Proofs.Schema.Resolution

namespace ConceptGraph

open Std

namespace Schema

variable {s s' : Schema} {t p x a : TypeId}

/-! ## Supertypes -/

/-- the element stands under `p`, and the rest is as it was -/
structure Moves (s s' : Schema) (t p : TypeId) : Prop where
  get? : ∀ x, s'.get? x = s.get? x
  parent : ∀ x, s'.directSupertype? x = if x = t then some p else s.directSupertype? x
  metas : s'.metaTypes = s.metaTypes
  byOwned : s'.implicitByOwned = s.implicitByOwned
  byRelation : s'.implicitByRelation = s.implicitByRelation

/-- an element that stands there already -/
theorem Moves.refl (hp : s.directSupertype? t = some p) : s.Moves s t p := by
  refine ⟨fun _ => rfl, fun x => ?_, rfl, rfl, rfl⟩
  split
  · rename_i hx
    rw [hx, hp]
  · rfl

theorem reparent_moves {old : Option TypeId} (hs : s.Indexed) (hm : s.reparent t p = .ok (old, s')) :
    s.Moves s' t p := by
  obtain ⟨-, -, hmeta, ho, hr⟩ := tables_reparent hm
  exact ⟨get?_reparent hm, directSupertype?_reparent hm hs, hmeta, ho, hr⟩

section Moves

variable (h : s.Moves s' t p) (hs : s.Indexed) (hs' : s'.Indexed)

include h hs hs'

/-- elements that are not below the one that is moved keep their ancestors -/
theorem Moves.supertypes_unmoved (hx : t ∉ s'.supertypes x) : s.supertypes x = s'.supertypes x := by
  cases hd : s.get? x with
  | none => rw [hs.supertypes_of_none hd, hs'.supertypes_of_none (by rw [h.get?, hd])]
  | some d =>
    refine hs'.supertypes_congr hs ?_ ⟨d, by rw [h.get?, hd]⟩
    intro a ha
    obtain ⟨-, e, -, he, -⟩ := hs'.defined_of_mem ha
    have hat : a ≠ t := fun hat => hx (hat ▸ ha)
    rw [h.parent, if_neg hat]
    exact ⟨⟨e, by rw [← h.get?, he]⟩, rfl⟩

/-- what is above the new supertype has been above it -/
theorem Moves.supertypes_target : s'.supertypes p = s.supertypes p := by
  have hp : s'.directSupertype? t = some p := by rw [h.parent, if_pos rfl]
  exact (h.supertypes_unmoved hs hs' (hs'.not_above_direct hp)).symm

/-- the same elements are below the one that is moved -/
theorem Moves.below_iff : t ∈ s'.supertypes x ↔ t ∈ s.supertypes x := by
  induction x using hs.supertype_induction with
  | _ x ih =>
    rw [hs'.mem_supertypes_iff, hs.mem_supertypes_iff, h.get?, h.parent]
    by_cases hx : x = t
    · subst hx
      constructor
      · rintro (hself | ⟨q, hq, hxq⟩)
        · exact Or.inl hself
        · rw [if_pos rfl] at hq
          obtain rfl := Option.some.inj hq
          exact absurd hxq (hs'.not_above_direct (by rw [h.parent, if_pos rfl]))
      · rintro (hself | ⟨q, hq, hxq⟩)
        · exact Or.inl hself
        · exact absurd hxq (hs.not_above_direct hq)
    · rw [if_neg hx]
      refine or_congr_right (exists_congr fun q => and_congr_right fun hq => ih q hq)

/-- **Above** what is below the element -/
theorem Moves.mem_supertypes (hx : t ∈ s.supertypes x) :
    a ∈ s'.supertypes x ↔ (a ∈ s.supertypes x ∧ t ∈ s.supertypes a) ∨ a ∈ s.supertypes p := by
  induction x using hs.supertype_induction with
  | _ x ih =>
    obtain ⟨d, -, hd, -⟩ := hs.defined_of_mem hx
    have hself := hs.self_mem_supertypes hd
    rw [hs'.mem_supertypes_iff, h.get?, h.parent]
    by_cases hxt : x = t
    · subst hxt
      simp only [if_true, Option.some.injEq, exists_eq_left', h.supertypes_target hs hs']
      refine or_congr_left ⟨?_, ?_⟩
      · rintro ⟨rfl, -⟩
        exact ⟨hself, hself⟩
      · rintro ⟨ha, hta⟩
        exact ⟨hs.supertypes_antisymm ha hta, d, hd⟩
    · rw [if_neg hxt]
      -- the element stands above the direct supertype
      obtain ⟨rfl, -⟩ | ⟨q, hq, htq⟩ := hs.mem_supertypes_iff.1 hx
      · exact absurd rfl hxt
      simp only [hq, Option.some.injEq, exists_eq_left', ih q hq htq]
      rw [← or_assoc]
      refine or_congr_left ⟨?_, ?_⟩
      · rintro (⟨rfl, -⟩ | ⟨ha, hta⟩)
        · exact ⟨hself, hx⟩
        · exact ⟨hs.mem_supertypes_iff.2 (Or.inr ⟨q, hq, ha⟩), hta⟩
      · rintro ⟨ha, hta⟩
        rcases hs.mem_supertypes_iff.1 ha with hax | ⟨q', hq', haq⟩
        · exact Or.inl hax
        · obtain rfl := Option.some.inj (hq.symm.trans hq')
          exact Or.inr ⟨haq, hta⟩

end Moves

/-! ## Data types -/

/-- the data type is the first of those that are declared above -/
theorem dataType?_eq_head? (s : Schema) (t : TypeId) :
    s.dataType? t = ((s.supertypes t).filterMap s.declaredDataType?).head? := by
  rw [dataType?, ← List.head?_filterMap, lineage, List.filterMap_filterMap]
  congr 2
  funext a
  rw [declaredDataType?]
  cases s.get? a <;> rfl

/-- two schemas in which the same is declared above an element give it the same data type -/
theorem dataType?_congr (hsup : s'.supertypes t = s.supertypes t)
    (hdecl : ∀ a ∈ s.supertypes t, s'.declaredDataType? a = s.declaredDataType? a) : s'.dataType? t = s.dataType? t := by
  rw [dataType?_eq_head?, dataType?_eq_head?, hsup, List.filterMap_congr hdecl]

/-- only attribute types have a data type -/
theorem kind_of_declaredDataType? {v : DataType} (hv : s.declaredDataType? a = some v) :
    ∃ d, s.get? a = some d ∧ d.kind = .attribute := by
  obtain ⟨d, hd, hdv⟩ := Option.bind_eq_some_iff.1 hv
  refine ⟨d, hd, ?_⟩
  obtain ⟨l, ab, pl, ow, body⟩ := d
  cases body with
  | «attribute» => rfl
  | _ => cases hdv

/-- from `x` up to `t`, nothing declares a data type: `x` has that which `t` inherits -/
def InheritsThrough (s : Schema) (x t : TypeId) : Prop :=
  t ∈ s.supertypes x ∧ ∀ a ∈ s.supertypes x, t ∈ s.supertypes a → s.declaredDataType? a = none

instance (s : Schema) (x t : TypeId) : Decidable (s.InheritsThrough x t) :=
  inferInstanceAs (Decidable (_ ∧ ∀ a ∈ s.supertypes x, _ → s.declaredDataType? a = none))

section Moves

variable (h : s.Moves s' t p) (hs : s.Indexed) (hs' : s'.Indexed) (ha : s.Agreeing) (ha' : s'.Agreeing)

omit hs hs' ha ha' in
include h in
theorem Moves.declaredDataType? (x : TypeId) : s'.declaredDataType? x = s.declaredDataType? x := by
  rw [Schema.declaredDataType?, h.get?, Schema.declaredDataType?]

include h hs hs' ha ha'

/-- what inherits through the element has the data type of the new supertype -/
theorem Moves.dataType?_through (hx : s.InheritsThrough x t) : s'.dataType? x = s.dataType? p := by
  apply Option.ext
  intro v
  rw [ha'.dataType?_eq_some, ha.dataType?_eq_some]
  simp only [h.declaredDataType?, h.mem_supertypes hs hs' hx.1]
  constructor
  · rintro ⟨a, ⟨hax, hta⟩ | hap, hv⟩
    · rw [hx.2 a hax hta] at hv
      simp at hv
    · exact ⟨a, hap, hv⟩
  · rintro ⟨a, hap, hv⟩
    exact ⟨a, Or.inr hap, hv⟩

/-- what does not inherit through the element keeps its data type -/
theorem Moves.dataType?_kept (hx : ¬ s.InheritsThrough x t) : s'.dataType? x = s.dataType? x := by
  by_cases htx : t ∈ s.supertypes x
  · -- something up to the element declares a data type, before and after
    simp only [InheritsThrough, htx, true_and, not_forall] at hx
    obtain ⟨a, hax, hta, hne⟩ := hx
    obtain ⟨v, hv⟩ := Option.ne_none_iff_exists'.1 hne
    rw [ha.dataType?_eq_some.2 ⟨a, hax, hv⟩, ha'.dataType?_eq_some]
    exact ⟨a, (h.mem_supertypes hs hs' htx).2 (Or.inl ⟨hax, hta⟩), (h.declaredDataType? a).trans hv⟩
  · have hsup := h.supertypes_unmoved hs hs' fun hx => htx ((h.below_iff hs hs').1 hx)
    exact dataType?_congr hsup.symm fun a _ => h.declaredDataType? a

end Moves

end Schema

end ConceptGraph
