/-
The four tables of a schema (definitions, labels, and the two forests) and the references between definitions, read
together in every state that a session gets to.

- `Hierarchy.Linked`: the children of a node are the nodes of which it is the parent, each of them once.
- `Schema.Climbs`: the walk upwards from an element goes from each element to its direct supertype, and ends at a root.
- `Schema.Orderly`: labels and definitions are in bijection, each forest has the elements of its side and no others,
  walks end at `thing` or `role` and pass through the type of their kind to start from, the five such types are what
  they were, and references lead to elements of the right kind.
- `Session.schema_orderly`: all schemas along a run are orderly.
-/
import ConceptGraph.Proofs.Transaction.Alterations
import ConceptGraph.Proofs.Transaction.GraphEdits
import ConceptGraph.Proofs.Session.Runs

namespace ConceptGraph

open Std

/-- children and parents are the same edges, and no child is listed twice -/
structure Hierarchy.Linked (h : Hierarchy TypeId) : Prop where
  parent : ∀ n p, h.parent? n = some p → h.contains p
  child_iff : ∀ n p, n ∈ h.children p ↔ h.parent? n = some p
  nodup : ∀ p, (h.children p).Nodup

/-- the root of the forest that elements of the kind are in -/
def MetaTypes.rootOf (m : MetaTypes) (k : Kind) : TypeId := if k = .role then m.roleRoot else m.thingRoot

namespace Schema

variable {s : Schema} {m : MetaTypes} {t p root : TypeId} {d : TypeDef}

/-- the walk upwards from the element goes from one direct supertype to the next, and ends at the root -/
structure Climbs (s : Schema) (t root : TypeId) : Prop where
  head : (s.supertypes t).head? = some t
  steps : (s.supertypes t).IsChain fun a p => s.directSupertype? a = some p
  last : (s.supertypes t).getLast? = some root
  top : s.directSupertype? root = none

/-- the tables of a schema that started with the types `m` fit together -/
structure Orderly (m : MetaTypes) (s : Schema) : Prop where
  metaTypes : s.metaTypes = m
  distinct : m.toList.Nodup
  labels : ∀ l t, s.idOf? l = some t ↔ ∃ d, s.get? t = some d ∧ d.label = l
  roles : ∀ t, s.roles.contains t ↔ s.HasKind t .role
  things : ∀ t, s.things.contains t ↔ ∃ d, s.get? t = some d ∧ d.kind ≠ .role
  linked : s.things.Linked ∧ s.roles.Linked
  climbs : ∀ t d, s.get? t = some d → s.Climbs t (m.rootOf d.kind)
  parented : ∀ t d, s.get? t = some d → t ∉ m.toList →
    (∃ p, s.directSupertype? t = some p ∧ s.HasKind p d.kind) ∧ m.ofKind d.kind ∈ s.supertypes t
  metas : ∀ t ∈ m.toList, s.get? t = (bootstrap m).get? t ∧ s.directSupertype? t = (bootstrap m).directSupertype? t
  refs : ∀ t d, s.get? t = some d → s.RefsDefined d

namespace Coherent

/-- a type to start from, other than `thing`, is the one of its kind -/
theorem eq_ofKind (h : s.Coherent) (ht : s.isMeta t) (hne : t ≠ s.metaTypes.thingRoot) (hd : s.get? t = some d) :
    t = s.metaTypes.ofKind d.kind := by
  rcases (get?_bootstrap h.nodup).1 (h.root_def ht hd) with ⟨rfl, -⟩ | ⟨rfl, rfl⟩ | ⟨rfl, rfl⟩ | ⟨rfl, rfl⟩ | ⟨rfl, rfl⟩
  · exact absurd rfl hne
  all_goals rw [rootDef_kind]; rfl

/-- an element without a direct supertype is a root -/
theorem eq_rootOf (h : s.Coherent) (hd : s.get? t = some d) (hp : s.directSupertype? t = none) :
    t = s.metaTypes.rootOf d.kind := by
  by_cases ht : s.isMeta t
  · have hkept : (bootstrap s.metaTypes).directSupertype? t = none := (h.roots t (isMeta_iff.1 ht)).2 ▸ hp
    have hbelow : t ∉ [s.metaTypes.entityRoot, s.metaTypes.relationRoot, s.metaTypes.attributeRoot] := by
      intro hmem
      rw [(directSupertype?_bootstrap h.nodup).2 ⟨hmem, rfl⟩] at hkept
      cases hkept
    rcases (get?_bootstrap h.nodup).1 (h.root_def ht hd) with ⟨rfl, rfl⟩ | ⟨rfl, rfl⟩ | ⟨rfl, -⟩ | ⟨rfl, -⟩ | ⟨rfl, -⟩
    · rw [rootDef_kind]
      rfl
    · rw [rootDef_kind]
      rfl
    all_goals simp at hbelow
  · obtain ⟨p, hp', -⟩ := h.parented t d hd ht
    rw [hp] at hp'
    cases hp'

/-- **Walks** upwards end at `thing` or `role`. -/
theorem climbs (h : s.Coherent) (hd : s.get? t = some d) : s.Climbs t (s.metaTypes.rootOf d.kind) := by
  induction t using h.indexed.supertype_induction generalizing d with
  | _ t ih =>
    have hwalk := h.indexed.supertypes_eq hd
    cases hp : s.directSupertype? t with
    | none =>
      have hroot := h.eq_rootOf hd hp
      rw [hp] at hwalk
      exact ⟨by rw [hwalk]; rfl, by rw [hwalk]; exact .singleton t, by rw [hwalk, ← hroot]; rfl, hroot ▸ hp⟩
    | some p =>
      obtain ⟨d', e, hd', he, hr⟩ := h.indexed.defined_of_directSupertype? hp
      obtain rfl := Option.some.inj (hd.symm.trans hd')
      have hup := ih p hp he
      have hside : s.metaTypes.rootOf e.kind = s.metaTypes.rootOf d.kind := by
        have hiff : e.kind = .role ↔ d.kind = .role := by simpa [TypeDef.isRole] using Bool.eq_iff_iff.1 hr
        simp only [MetaTypes.rootOf, hiff]
      rw [hp] at hwalk
      refine ⟨by rw [hwalk]; rfl, ?_, ?_, hside ▸ hup.top⟩
      · rw [hwalk]
        refine List.isChain_cons.2 ⟨fun q hq => ?_, hup.steps⟩
        obtain rfl := Option.some.inj (hup.head.symm.trans hq)
        exact hp
      · rw [hwalk, ← hside]
        exact List.getLast?_cons.trans (by rw [Option.elim_some, hup.last]; rfl)

/-- **The walk** from an element that users have made passes through the type of its kind to start from. -/
theorem ofKind_above (h : s.Coherent) (hd : s.get? t = some d) (ht : ¬ s.isMeta t) :
    s.metaTypes.ofKind d.kind ∈ s.supertypes t := by
  induction t using h.indexed.supertype_induction generalizing d with
  | _ t ih =>
    obtain ⟨p, hp, hne, e, he, hk⟩ := h.parented t d hd ht
    refine h.indexed.mem_supertypes_iff.2 (Or.inr ⟨p, hp, ?_⟩)
    rw [← hk]
    by_cases hm : s.isMeta p
    · rw [← h.eq_ofKind hm hne he]
      exact h.indexed.self_mem_supertypes he
    · exact ih p hp he hm

/-- a coherent schema is orderly -/
theorem orderly (h : s.Coherent) (hm : s.metaTypes = m) : s.Orderly m := by
  subst hm
  have hlinked : ∀ b, (s.forest b).Linked := fun b =>
    ⟨(h.indexed.forests b).parent_mem, (h.indexed.forests b).child_iff, (h.indexed.forests b).nodup⟩
  refine ⟨rfl, h.nodup, h.indexed.label, fun t => ?_, fun t => ?_, ⟨hlinked false, hlinked true⟩,
    fun t d hd => h.climbs hd, fun t d hd ht => ?_, h.roots, h.refs⟩
  · exact (h.indexed.node true t).trans (by simp [TypeDef.isRole, HasKind])
  · exact (h.indexed.node false t).trans (by simp [TypeDef.isRole])
  · rw [← isMeta_iff] at ht
    obtain ⟨p, hp, -, hk⟩ := h.parented t d hd ht
    exact ⟨⟨p, hp, hk⟩, h.ofKind_above hd ht⟩

end Coherent

end Schema

namespace Session

variable {config : SessionConfig} {ids : Option IdSource} {journal : Option Journal} {s : Session} {es : List Event}

/-- **Schemas are orderly** in the committed state and in the open transaction, whatever has been done. -/
theorem schema_orderly (hs : start config ids journal = .ok s) (hfit : s.issued es < 2 ^ 64) :
    (s.run es).Everywhere fun x => x.schema.Orderly (MetaTypes.take ⟨firstId config ids⟩).1 := by
  refine run_everywhere hs ?_ (fun p op t hp hw ht => ?_) (List.prefix_refl es)
  · exact (Schema.bootstrap_coherent (MetaTypes.nodup_take _)).orderly rfl
  · have hsound := writer_sound hs hfit hp hw
    have hfit := fits_during hfit hw hp
    refine Transaction.perform_everywhere hsound hfit ht (fun r hop hok => ?_) fun _ _ => ht.working
    obtain ⟨k, hstep, ha⟩ := Transaction.perform_alters hsound hfit hop hok
    exact hstep.sound.coherent.orderly (ha.metas.trans ht.working.metaTypes)

/-- workers, who are persons, under another label, and a role below another that is deleted again -/
def renamedWorkers : List Event :=
  [.begin, .perform (.putEntityType "person"), .perform (.putEntityType "worker"), .perform (.setSupertype ⟨7⟩ ⟨6⟩),
    .perform (.putRole "member"), .perform (.putRole "boss"), .perform (.setSupertype ⟨9⟩ ⟨8⟩),
    .perform (.putRelationType "team"), .perform (.relates ⟨10⟩ ⟨8⟩), .perform (.plays ⟨6⟩ ⟨9⟩),
    .perform (.setLabel ⟨7⟩ "staff"), .perform (.deleteType ⟨9⟩)]

set_option maxRecDepth 10000 in
theorem renamedWorkers_orderly : blank.issued renamedWorkers < 2 ^ 64 ∧
    ∃ t, (blank.run renamedWorkers).writer = some t ∧
    t.working.schema.supertypes ⟨7⟩ = [⟨7⟩, ⟨6⟩, ⟨2⟩, ⟨1⟩] ∧ t.working.schema.idOf? "worker" = none ∧
    t.working.schema.get? ⟨9⟩ = none ∧ t.working.schema.Orderly (MetaTypes.take ⟨1⟩).1 := by
  have hfit : blank.issued renamedWorkers < 2 ^ 64 := by decide +kernel
  obtain ⟨t, hw, hsup, hlabel, hgone⟩ : ∃ t ∈ (blank.run renamedWorkers).writer,
      t.working.schema.supertypes ⟨7⟩ = [⟨7⟩, ⟨6⟩, ⟨2⟩, ⟨1⟩] ∧ t.working.schema.idOf? "worker" = none ∧
      (t.working.schema.get? ⟨9⟩).isNone := by decide +kernel
  exact ⟨hfit, t, hw, hsup, hlabel, Option.isNone_iff_eq_none.1 hgone,
    ((schema_orderly start_testing hfit).writer t hw).working⟩

end Session

end ConceptGraph
