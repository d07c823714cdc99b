/-
Declarations of ownership and the records of them, in plain lookups.

- `InPlace`: what is said of one record. Its elements are of their kinds, lie right under `relation` and `role`, have
  nothing below them, and have the labels that go with the label that the attribute type has now. Its roles are related
  by its relation type alone; the role of the value is played by the attribute type alone, the role of the owner by
  exactly those who own the attribute type.
- `InStep`: all records are in place, and the tables of records, the declarations of ownership and the labels that users
  cannot write speak of the same records.
- `Recorded.inStep`: a coherent schema with its records is in step.
- `Session.declarations_in_step`: so is the schema of every state that a session gets to.
-/
import ConceptGraph.Proofs.Session.Runs

namespace ConceptGraph

open Std

namespace Schema

/-- the elements of the record are as the library made them, whatever has happened to the attribute type since -/
structure InPlace (s : Schema) (r : ImplicitOwnership) : Prop where
  ownedKind : s.HasKind r.owned .attribute
  relationKind : s.HasKind r.relation .relation
  ownerKind : s.HasKind r.ownerRole .role
  valueKind : s.HasKind r.valueRole .role
  relationParent : s.directSupertype? r.relation = some s.metaTypes.relationRoot
  ownerParent : s.directSupertype? r.ownerRole = some s.metaTypes.roleRoot
  valueParent : s.directSupertype? r.valueRole = some s.metaTypes.roleRoot
  leaves : ∀ x, r.Made x → s.directSubtypes x = []
  relationLabel : s.labelOf r.relation = Label.ownershipRelation (s.labelOf r.owned)
  ownerLabel : s.labelOf r.ownerRole = Label.ownerRole (s.labelOf r.owned)
  valueLabel : s.labelOf r.valueRole = Label.valueRole (s.labelOf r.owned)
  relates : ∀ role, s.DeclaresRelates r.relation role ↔ role = r.ownerRole ∨ role = r.valueRole
  related : ∀ t role, role = r.ownerRole ∨ role = r.valueRole → (s.relatesRole t role ↔ t = r.relation)
  valuePlayed : ∀ t, s.DeclaresPlays t r.valueRole ↔ t = r.owned
  ownerPlayed : ∀ t, s.DeclaresPlays t r.ownerRole ↔ s.DeclaresOwns t r.owned

/-- tables, declarations and labels speak of the same records, and these are in place -/
structure InStep (s : Schema) : Prop where
  byOwned : ∀ a r, s.implicitForOwned? a = some r → r.owned = a ∧ s.implicitForRelation? r.relation = some r
  byRelation : ∀ t r, s.implicitForRelation? t = some r → r.relation = t ∧ s.implicitForOwned? r.owned = some r
  owned : ∀ t a, s.DeclaresOwns t a → ∃ r, s.implicitForOwned? a = some r
  placed : ∀ a r, s.implicitForOwned? a = some r → s.InPlace r
  reserved : ∀ t d, s.get? t = some d → Label.isReserved d.label → ∃! r, s.implicitForOwned? r.owned = some r ∧ r.Made t

variable {s : Schema} {t : TypeId} {d : TypeDef} {r : ImplicitOwnership}

theorem labelOf_eq (hd : s.get? t = some d) : s.labelOf t = d.label := by rw [labelOf, hd]; rfl

/-- what was made for a record has nothing below it -/
theorem Backs.directSubtypes_eq_nil (h : s.Backs r d) (hs : s.Indexed) {x : TypeId} (hx : r.Made x) :
    s.directSubtypes x = [] :=
  hs.directSubtypes_eq_nil.2 fun y => h.leaf y x hx

theorem Backs.relates_iff (h : s.Backs r d) (role : TypeId) :
    s.DeclaresRelates r.relation role ↔ role = r.ownerRole ∨ role = r.valueRole := by
  rw [← r.relatesRole_relationDef d.label role, DeclaresRelates, h.relation]
  simp

/-- the roles of a record are related by its relation type alone, inheritance included -/
theorem Recorded.relatesRole_iff_of_record (h : s.Recorded) (hs : s.Indexed) (hr : s.HasRecord r) (hb : s.Backs r d)
    {role : TypeId} (hrole : role = r.ownerRole ∨ role = r.valueRole) : s.relatesRole t role ↔ t = r.relation := by
  rw [relatesRole_iff]
  constructor
  · rintro ⟨a, ha, hrel⟩
    obtain rfl := h.relates r a role hr hrole hrel
    exact hs.eq_of_leaf (fun x => hb.leaf x r.relation (Or.inl rfl)) ha
  · rintro rfl
    exact ⟨r.relation, hs.self_mem_supertypes hb.relation, (hb.relates_iff role).2 hrole⟩

/-- a record of a coherent schema is in place -/
theorem Recorded.inPlace (h : s.Recorded) (hc : s.Coherent) (hr : s.HasRecord r) : s.InPlace r := by
  obtain ⟨d, hb⟩ := h.backed r hr
  refine
    { ownedKind := ⟨d, hb.owned, hb.kind⟩
      relationKind := ⟨_, hb.relation, rfl⟩
      ownerKind := ⟨_, hb.ownerRole, rfl⟩
      valueKind := ⟨_, hb.valueRole, rfl⟩
      relationParent := hb.relationParent
      ownerParent := hb.ownerParent
      valueParent := hb.valueParent
      leaves := fun x hx => hb.directSubtypes_eq_nil hc.indexed hx
      relationLabel := ?_
      ownerLabel := ?_
      valueLabel := ?_
      relates := hb.relates_iff
      related := fun t role hrole => h.relatesRole_iff_of_record hc.indexed hr hb hrole
      valuePlayed := fun t => h.valuePlays r t hr
      ownerPlayed := fun t => h.ownerPlays r t hr }
  · rw [labelOf_eq hb.relation, labelOf_eq hb.owned, ImplicitOwnership.label_relationDef]
  · rw [labelOf_eq hb.ownerRole, labelOf_eq hb.owned, TypeDef.label_blank]
  · rw [labelOf_eq hb.valueRole, labelOf_eq hb.owned, TypeDef.label_blank]

/-- **A coherent schema with its records is in step.** -/
theorem Recorded.inStep (h : s.Recorded) (hc : s.Coherent) : s.InStep where
  byOwned a r hr := by
    obtain ⟨hrec, rfl⟩ := h.implicitForOwned?.1 hr
    exact ⟨rfl, (h.byRelation _ r).2 ⟨hrec, rfl⟩⟩
  byRelation t r hr := by
    obtain ⟨hrec, rfl⟩ := (h.byRelation t r).1 hr
    exact ⟨rfl, hrec⟩
  owned t a hto := by
    obtain ⟨r, hr, rfl⟩ := h.owned t a hto
    exact ⟨r, hr⟩
  placed a r hr := h.inPlace hc (h.implicitForOwned?.1 hr).1
  reserved t d hd hl := by
    obtain ⟨r, hr, hm⟩ := h.reserved t d hd hl
    exact ⟨r, ⟨hr, hm⟩, fun q hq => h.made_unique hc.indexed hq.1 hr hq.2 hm⟩

end Schema

namespace Session

variable {config : SessionConfig} {ids : Option IdSource} {journal : Option Journal} {s : Session} {es : List Event}

/-- **Declarations of ownership and their records stay in step**, in the committed state and in the open transaction. -/
theorem declarations_in_step (hs : start config ids journal = .ok s) (hfit : s.issued es < 2 ^ 64) :
    (s.run es).committed.schema.InStep ∧ ∀ t, (s.run es).writer = some t → t.working.schema.InStep := by
  have h := run_sound hs hfit (List.prefix_refl _)
  refine ⟨h.states.committed.recorded.inStep h.states.committed.coherent, fun t hw => ?_⟩
  have ht := (h.writer hw).working
  exact ht.recorded.inStep ht.coherent

/-- tags that are tagged, persons known by a tag and a nick, and no nicks any more -/
def markedTags : List Event :=
  [.begin, .perform (.putAttributeType "tag" (some .string)), .perform (.has ⟨6⟩ ⟨6⟩),
    .perform (.putEntityType "person"), .perform (.key ⟨10⟩ ⟨6⟩), .perform (.putAttributeType "nick" (some .string)),
    .perform (.has ⟨10⟩ ⟨11⟩), .perform (.has ⟨11⟩ ⟨6⟩), .perform (.setLabel ⟨6⟩ "mark"), .perform (.deleteType ⟨11⟩)]

set_option maxRecDepth 10000 in
theorem markedTags_in_step : blank.issued markedTags < 2 ^ 64 ∧ ∃ t, (blank.run markedTags).writer = some t ∧
    t.working.schema.implicitForOwned? ⟨6⟩ = some ⟨⟨6⟩, ⟨7⟩, ⟨8⟩, ⟨9⟩⟩ ∧
    t.working.schema.idOf? "@has-mark:owner" = some ⟨8⟩ ∧ t.working.schema.implicitForOwned? ⟨11⟩ = none ∧
    t.working.schema.InStep := by
  have hfit : blank.issued markedTags < 2 ^ 64 := by decide +kernel
  have hread : (blank.run markedTags).writer.map (fun t => (t.working.schema.implicitForOwned? ⟨6⟩,
      t.working.schema.idOf? "@has-mark:owner", t.working.schema.implicitForOwned? ⟨11⟩)) =
      some (some ⟨⟨6⟩, ⟨7⟩, ⟨8⟩, ⟨9⟩⟩, some ⟨8⟩, none) := by
    decide +kernel
  obtain ⟨t, hw, ht⟩ := Option.map_eq_some_iff.1 hread
  obtain ⟨h6, hrest⟩ := Prod.mk.inj ht
  obtain ⟨hlabel, h11⟩ := Prod.mk.inj hrest
  exact ⟨hfit, t, hw, h6, hlabel, h11, (declarations_in_step start_testing hfit).2 t hw⟩

end Session

end ConceptGraph
