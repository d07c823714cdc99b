/-
Ownership records: the relation type and the two roles that the library makes for an attribute type stay as they were
made, whatever users do to the schema, and belong to exactly one record.

- `Backs`: the elements of a record are defined as they were made, under the labels that go with the attribute type.
- `Recorded`: the tables and the records agree; whatever has a reserved label belongs to a record; the roles of a record
  are related by its relation type alone, and played by those who own the attribute type, and by the attribute type.
- `insert_recorded`, `redefine_recorded`, `reparent_recorded`: edits of single elements keep the records.
-/
import ConceptGraph.Proofs.Schema.Coherence

namespace ConceptGraph

open Std

/-! ## Labels -/

namespace Label

theorem toList_ownershipRelation (a : Label) : (ownershipRelation a).toList = ['@', 'h', 'a', 's', '-'] ++ a.toList := by
  rw [ownershipRelation, String.toList_append]
  rfl

theorem toList_ownerRole (a : Label) :
    (ownerRole a).toList = ['@', 'h', 'a', 's', '-'] ++ a.toList ++ [':', 'o', 'w', 'n', 'e', 'r'] := by
  rw [ownerRole, String.toList_append, toList_ownershipRelation]
  rfl

theorem toList_valueRole (a : Label) :
    (valueRole a).toList = ['@', 'h', 'a', 's', '-'] ++ a.toList ++ [':', 'v', 'a', 'l', 'u', 'e'] := by
  rw [valueRole, String.toList_append, toList_ownershipRelation]
  rfl

theorem isReserved_ownershipRelation (a : Label) : isReserved (ownershipRelation a) := by
  rw [isReserved, toList_ownershipRelation]
  rfl

theorem isReserved_ownerRole (a : Label) : isReserved (ownerRole a) := by
  rw [isReserved, toList_ownerRole]
  rfl

theorem isReserved_valueRole (a : Label) : isReserved (valueRole a) := by
  rw [isReserved, toList_valueRole]
  rfl

theorem ownershipRelation_injective {a b : Label} (h : ownershipRelation a = ownershipRelation b) : a = b := by
  have := congrArg String.toList h
  rw [toList_ownershipRelation, toList_ownershipRelation] at this
  exact String.toList_injective (List.append_cancel_left this)

theorem ownerRole_injective {a b : Label} (h : ownerRole a = ownerRole b) : a = b := by
  have := congrArg String.toList h
  rw [toList_ownerRole, toList_ownerRole] at this
  exact String.toList_injective (List.append_cancel_left (List.append_cancel_right this))

theorem valueRole_injective {a b : Label} (h : valueRole a = valueRole b) : a = b := by
  have := congrArg String.toList h
  rw [toList_valueRole, toList_valueRole] at this
  exact String.toList_injective (List.append_cancel_left (List.append_cancel_right this))

theorem ownerRole_ne_valueRole (a b : Label) : ownerRole a ≠ valueRole b := by
  intro h
  have := congrArg String.toList h
  rw [toList_ownerRole, toList_valueRole] at this
  simpa using (List.append_inj' this rfl).2

/-- a label without a scope mark is not what a role of a record is made from -/
theorem ownershipRelation_ne_ownerRole {a : Label} (ha : scopeMark ∉ a.toList) (b : Label) :
    ownershipRelation a ≠ ownerRole b := by
  intro h
  have := congrArg String.toList h
  rw [toList_ownershipRelation, toList_ownerRole, List.append_assoc] at this
  refine ha (List.append_cancel_left this ▸ ?_)
  simp [scopeMark]

theorem ownershipRelation_ne_valueRole {a : Label} (ha : scopeMark ∉ a.toList) (b : Label) :
    ownershipRelation a ≠ valueRole b := by
  intro h
  have := congrArg String.toList h
  rw [toList_ownershipRelation, toList_valueRole, List.append_assoc] at this
  refine ha (List.append_cancel_left this ▸ ?_)
  simp [scopeMark]

/-- whether the library makes the label for the attribute type labelled `a` -/
def MadeFor (a l : Label) : Prop := l = ownershipRelation a ∨ l = ownerRole a ∨ l = valueRole a

theorem MadeFor.isReserved {a l : Label} (h : MadeFor a l) : isReserved l := by
  rcases h with rfl | rfl | rfl
  · exact isReserved_ownershipRelation a
  · exact isReserved_ownerRole a
  · exact isReserved_valueRole a

/-- a label is made for one attribute type only -/
theorem MadeFor.unique {a b l : Label} (ha : scopeMark ∉ a.toList) (hb : scopeMark ∉ b.toList) (h : MadeFor a l)
    (h' : MadeFor b l) : a = b := by
  rcases h with h | h | h <;> rcases h' with h' | h' | h' <;> rw [h] at h'
  · exact ownershipRelation_injective h'
  · exact absurd h' (ownershipRelation_ne_ownerRole ha _)
  · exact absurd h' (ownershipRelation_ne_valueRole ha _)
  · exact absurd h'.symm (ownershipRelation_ne_ownerRole hb _)
  · exact ownerRole_injective h'
  · exact absurd h' (ownerRole_ne_valueRole _ _)
  · exact absurd h'.symm (ownershipRelation_ne_valueRole hb _)
  · exact absurd h'.symm (ownerRole_ne_valueRole _ _)
  · exact valueRole_injective h'

end Label

/-- whether an element is one of the library's is told by its label -/
theorem TypeDef.isImplicit_congr {d d' : TypeDef} (h : d.label = d'.label) : d.isImplicit ↔ d'.isImplicit := by
  rw [isImplicit, isImplicit, h]

@[simp] theorem TypeDef.label_blank (l : Label) (b : TypeBody) : (TypeDef.blank l b).label = l := rfl

/-- whether the library made the element for the record -/
def ImplicitOwnership.Made (r : ImplicitOwnership) (x : TypeId) : Prop :=
  x = r.relation ∨ x = r.ownerRole ∨ x = r.valueRole

/-- the relation type of a record, as the library makes it -/
def ImplicitOwnership.relationDef (r : ImplicitOwnership) (l : Label) : TypeDef :=
  .blank (Label.ownershipRelation l) (.relation (.ofList [r.ownerRole, r.valueRole]) (some r.owned))

@[simp] theorem ImplicitOwnership.label_relationDef (r : ImplicitOwnership) (l : Label) :
    (r.relationDef l).label = Label.ownershipRelation l := rfl

theorem ImplicitOwnership.relatesRole_relationDef (r : ImplicitOwnership) (l : Label) (role : TypeId) :
    (r.relationDef l).relatesRole role ↔ role = r.ownerRole ∨ role = r.valueRole := by
  simp [relationDef, TypeDef.relatesRole, TypeDef.relates?, TypeDef.blank]

namespace Schema

/-- the record is in the table of owned attribute types -/
def HasRecord (s : Schema) (r : ImplicitOwnership) : Prop := s.implicitForOwned? r.owned = some r

/-- the elements of the record are as they were made for an attribute type with that definition -/
structure Backs (s : Schema) (r : ImplicitOwnership) (d : TypeDef) : Prop where
  owned : s.get? r.owned = some d
  kind : d.kind = .attribute
  plain : ¬ d.isImplicit
  relation : s.get? r.relation = some (r.relationDef d.label)
  ownerRole : s.get? r.ownerRole = some (.blank (Label.ownerRole d.label) .role)
  valueRole : s.get? r.valueRole = some (.blank (Label.valueRole d.label) .role)
  relationParent : s.directSupertype? r.relation = some s.metaTypes.relationRoot
  ownerParent : s.directSupertype? r.ownerRole = some s.metaTypes.roleRoot
  valueParent : s.directSupertype? r.valueRole = some s.metaTypes.roleRoot
  leaf : ∀ x y, r.Made y → s.directSupertype? x ≠ some y

/-- tables, reserved labels and declarations about ownership agree -/
structure Recorded (s : Schema) : Prop where
  byOwned : ∀ a r, s.implicitForOwned? a = some r → r.owned = a
  byRelation : ∀ t r, s.implicitForRelation? t = some r ↔ s.HasRecord r ∧ r.relation = t
  backed : ∀ r, s.HasRecord r → ∃ d, s.Backs r d
  reserved : ∀ t d, s.get? t = some d → d.isImplicit → ∃ r, s.HasRecord r ∧ r.Made t
  marked : ∀ t d a, s.get? t = some d → d.implicitFor? = some a → d.isImplicit
  unscoped : ∀ t d, s.get? t = some d → ¬ d.isImplicit → Label.scopeMark ∉ d.label.toList
  relates : ∀ r t role, s.HasRecord r → role = r.ownerRole ∨ role = r.valueRole → s.DeclaresRelates t role → t = r.relation
  ownerPlays : ∀ r t, s.HasRecord r → (s.DeclaresPlays t r.ownerRole ↔ s.DeclaresOwns t r.owned)
  valuePlays : ∀ r t, s.HasRecord r → (s.DeclaresPlays t r.valueRole ↔ t = r.owned)
  owned : ∀ t a, s.DeclaresOwns t a → ∃ r, s.HasRecord r ∧ r.owned = a

variable {s s' : Schema} {t a p x : TypeId} {d d' : TypeDef} {r r' : ImplicitOwnership}

/-! ## Reading -/

theorem Backs.made_implicit (h : s.Backs r d) (hx : r.Made x) : ∃ e, s.get? x = some e ∧ e.isImplicit := by
  rcases hx with rfl | rfl | rfl
  · exact ⟨_, h.relation, Label.isReserved_ownershipRelation _⟩
  · exact ⟨_, h.ownerRole, Label.isReserved_ownerRole _⟩
  · exact ⟨_, h.valueRole, Label.isReserved_valueRole _⟩

/-- the label of an element that was made for a record goes with that of the attribute type -/
theorem Backs.made_label (h : s.Backs r d) (hx : r.Made x) {e : TypeDef} (he : s.get? x = some e) :
    Label.MadeFor d.label e.label := by
  rcases hx with rfl | rfl | rfl
  · rw [← Option.some.inj (h.relation.symm.trans he)]
    exact Or.inl rfl
  · rw [← Option.some.inj (h.ownerRole.symm.trans he)]
    exact Or.inr (Or.inl rfl)
  · rw [← Option.some.inj (h.valueRole.symm.trans he)]
    exact Or.inr (Or.inr rfl)

namespace Recorded

theorem implicitForOwned? (h : s.Recorded) : s.implicitForOwned? a = some r ↔ s.HasRecord r ∧ r.owned = a := by
  constructor
  · intro hr
    obtain rfl := h.byOwned a r hr
    exact ⟨hr, rfl⟩
  · rintro ⟨hr, rfl⟩
    exact hr

theorem implicit_of_made (h : s.Recorded) (hr : s.HasRecord r) (hx : r.Made x) (hd : s.get? x = some d) : d.isImplicit := by
  obtain ⟨e, hb⟩ := h.backed r hr
  obtain ⟨d', hd', hi⟩ := hb.made_implicit hx
  obtain rfl := Option.some.inj (hd.symm.trans hd')
  exact hi

/-- a label goes with one record only -/
theorem madeFor_unique (h : s.Recorded) (hs : s.Indexed) {l : Label} {a' : TypeId} (hd : s.get? a = some d)
    (hplain : ¬ d.isImplicit) (hd' : s.get? a' = some d') (hplain' : ¬ d'.isImplicit) (hl : Label.MadeFor d.label l)
    (hl' : Label.MadeFor d'.label l) : a = a' :=
  hs.label_injective hd hd' (hl.unique (h.unscoped _ _ hd hplain) (h.unscoped _ _ hd' hplain') hl')

/-- an element is made for one record only -/
theorem made_unique (h : s.Recorded) (hs : s.Indexed) (hr : s.HasRecord r) (hr' : s.HasRecord r') (hx : r.Made x)
    (hx' : r'.Made x) : r = r' := by
  obtain ⟨d, hd⟩ := h.backed r hr
  obtain ⟨d', hd'⟩ := h.backed r' hr'
  obtain ⟨e, he, -⟩ := hd.made_implicit hx
  have ho := h.madeFor_unique hs hd.owned hd.plain hd'.owned hd'.plain (hd.made_label hx he) (hd'.made_label hx' he)
  rw [HasRecord, ← ho] at hr'
  exact Option.some.inj (hr.symm.trans hr')

/-- the labels that go with an attribute type are free as long as it has no record -/
theorem madeFor_free (h : s.Recorded) (hs : s.Indexed) (hd : s.get? a = some d) (hplain : ¬ d.isImplicit)
    (hn : s.implicitForOwned? a = none) {l : Label} (hl : Label.MadeFor d.label l) : s.idOf? l = none := by
  apply Option.eq_none_iff_forall_ne_some.2
  intro x hx
  obtain ⟨e, he, rfl⟩ := (hs.label l x).1 hx
  obtain ⟨r, hr, hm⟩ := h.reserved x e he hl.isReserved
  obtain ⟨d', hb⟩ := h.backed r hr
  have ho := h.madeFor_unique hs hd hplain hb.owned hb.plain hl (hb.made_label hm he)
  rw [HasRecord, ← ho, hn] at hr
  simp at hr

/-- a relation type has a reserved label exactly if it is that of a record -/
theorem isImplicit_iff (h : s.Recorded) (hd : s.get? t = some d) (hk : d.kind = .relation) :
    d.isImplicit ↔ ∃ q, s.implicitForRelation? t = some q := by
  constructor
  · intro hi
    obtain ⟨q, hq, hm⟩ := h.reserved t d hd hi
    obtain ⟨e, hb⟩ := h.backed q hq
    refine ⟨q, (h.byRelation t q).2 ⟨hq, ?_⟩⟩
    rcases hm with rfl | rfl | rfl
    · rfl
    · rw [← Option.some.inj (hb.ownerRole.symm.trans hd)] at hk
      cases hk
    · rw [← Option.some.inj (hb.valueRole.symm.trans hd)] at hk
      cases hk
  · rintro ⟨q, hq⟩
    obtain ⟨hr, rfl⟩ := (h.byRelation t q).1 hq
    exact h.implicit_of_made hr (Or.inl rfl) hd

theorem isImplicitRelation_iff (h : s.Recorded) : s.isImplicitRelation t ↔ ∃ q, s.implicitForRelation? t = some q := by
  rw [isImplicitRelation, Option.any_eq_true]
  constructor
  · rintro ⟨d, hd, hf⟩
    obtain ⟨a, ha⟩ := Option.isSome_iff_exists.1 hf
    refine (h.isImplicit_iff hd ?_).1 (h.marked t d a hd ha)
    obtain ⟨l, ab, pl, ow, body⟩ := d
    cases body <;> simp_all [TypeDef.implicitFor?, TypeDef.kind, TypeBody.kind]
  · rintro ⟨q, hq⟩
    obtain ⟨hr, rfl⟩ := (h.byRelation t q).1 hq
    obtain ⟨e, hb⟩ := h.backed q hr
    exact ⟨_, hb.relation, rfl⟩

/-- an element that was made for a record may play nothing and own nothing -/
theorem made_declares_nothing (h : s.Recorded) (hc : s.Coherent) (hr : s.HasRecord r) (hx : r.Made x)
    (ha : a ∈ s.supertypes x) (y : TypeId) : ¬ s.DeclaresPlays a y ∧ ¬ s.DeclaresOwns a y := by
  obtain ⟨e, hb⟩ := h.backed r hr
  have hroot : ∀ k, s.directSupertype? x = some (s.metaTypes.ofKind k) → ∀ p, s.directSupertype? x = some p →
      a ∈ s.supertypes p → ¬ s.DeclaresPlays a y ∧ ¬ s.DeclaresOwns a y := by
    intro k hk p hp hap
    obtain rfl := Option.some.inj (hk.symm.trans hp)
    have hm := hc.isMeta_of_above (Coherent.ofKind_isMeta s k) hap
    constructor
    · rintro ⟨d, hd, hp⟩
      exact (hc.root_bare hm hd).not_refersTo y (Or.inl hp)
    · rintro ⟨d, hd, ho⟩
      exact (hc.root_bare hm hd).not_refersTo y (Or.inr (Or.inr ho))
  rcases hc.indexed.mem_supertypes_iff.1 ha with ⟨rfl, -⟩ | ⟨p, hp, hap⟩
  · constructor
    · rintro ⟨d, hd, hp⟩
      rcases hx with rfl | rfl | rfl
      · exact TypeDef.not_mem_blank_plays (Option.some.inj (hb.relation.symm.trans hd) ▸ hp)
      · exact TypeDef.not_mem_blank_plays (Option.some.inj (hb.ownerRole.symm.trans hd) ▸ hp)
      · exact TypeDef.not_mem_blank_plays (Option.some.inj (hb.valueRole.symm.trans hd) ▸ hp)
    · rintro ⟨d, hd, ho⟩
      rcases hx with rfl | rfl | rfl
      · exact TypeDef.not_mem_blank_owns (Option.some.inj (hb.relation.symm.trans hd) ▸ ho)
      · exact TypeDef.not_mem_blank_owns (Option.some.inj (hb.ownerRole.symm.trans hd) ▸ ho)
      · exact TypeDef.not_mem_blank_owns (Option.some.inj (hb.valueRole.symm.trans hd) ▸ ho)
  · rcases hx with rfl | rfl | rfl
    · exact hroot .relation hb.relationParent p hp hap
    · exact hroot .role hb.ownerParent p hp hap
    · exact hroot .role hb.valueParent p hp hap

/-- no attribute type is above an element that was made for a record -/
theorem made_not_attribute (h : s.Recorded) (hc : s.Coherent) (hr : s.HasRecord r) (hx : r.Made x)
    (ha : a ∈ s.supertypes x) : ¬ s.HasKind a .attribute := by
  intro hk
  obtain ⟨e, hb⟩ := h.backed r hr
  rcases hx with rfl | rfl | rfl
  · cases hc.attribute_below hb.relation ha hk
  · cases hc.attribute_below hb.ownerRole ha hk
  · cases hc.attribute_below hb.valueRole ha hk

end Recorded

theorem Backs.owner_ne_value (h : s.Backs r d) : r.ownerRole ≠ r.valueRole := by
  intro he
  have := h.ownerRole
  rw [he, h.valueRole] at this
  exact Label.ownerRole_ne_valueRole _ _ (congrArg TypeDef.label (Option.some.inj this)).symm

theorem Backs.relation_ne_owner (h : s.Backs r d) : r.relation ≠ r.ownerRole := by
  intro he
  have := h.relation
  rw [he, h.ownerRole] at this
  exact absurd (congrArg TypeDef.kind (Option.some.inj this)) (by simp [TypeDef.kind, TypeDef.blank, TypeBody.kind,
    ImplicitOwnership.relationDef])

theorem Backs.relation_ne_value (h : s.Backs r d) : r.relation ≠ r.valueRole := by
  intro he
  have := h.relation
  rw [he, h.valueRole] at this
  exact absurd (congrArg TypeDef.kind (Option.some.inj this)) (by simp [TypeDef.kind, TypeDef.blank, TypeBody.kind,
    ImplicitOwnership.relationDef])

theorem Backs.not_made_owned (h : s.Backs r d) : ¬ r.Made r.owned := by
  intro hm
  obtain ⟨e, he, hi⟩ := h.made_implicit hm
  exact h.plain (Option.some.inj (h.owned.symm.trans he) ▸ hi)

theorem Backs.ne_owned (h : s.Backs r d) (hx : r.Made x) : x ≠ r.owned := fun he => h.not_made_owned (he ▸ hx)

theorem isMeta_congr (h : s'.metaTypes = s.metaTypes) : s'.isMeta t ↔ s.isMeta t := by
  rw [isMeta, isMeta, h]

/-- the five types are no types the library made later -/
theorem Coherent.root_plain (h : s.Coherent) (ht : s.isMeta t) (hd : s.get? t = some d) :
    ¬ d.isImplicit ∧ Label.scopeMark ∉ d.label.toList := by
  rcases (get?_bootstrap h.nodup).1 (h.root_def ht hd) with ⟨-, rfl⟩ | ⟨-, rfl⟩ | ⟨-, rfl⟩ | ⟨-, rfl⟩ | ⟨-, rfl⟩ <;>
    exact ⟨by decide, by decide⟩

theorem Recorded.made_not_meta (h : s.Recorded) (hc : s.Coherent) (hr : s.HasRecord r) (hx : r.Made x) : ¬ s.isMeta x := by
  intro hm
  obtain ⟨d, hd⟩ := hc.root_defined hm
  exact (hc.root_plain hm hd).1 (h.implicit_of_made hr hx hd)

theorem bootstrap_recorded {m : MetaTypes} (hm : m.toList.Nodup) : (bootstrap m).Recorded := by
  have hc := bootstrap_coherent hm
  have hmeta : ∀ {t d}, (bootstrap m).get? t = some d → (bootstrap m).isMeta t := by
    intro t d hd
    rw [isMeta_iff, metaTypes_bootstrap]
    exact mem_of_bootstrap hm hd
  have hplain : ∀ {t d}, (bootstrap m).get? t = some d → ¬ d.isImplicit ∧ Label.scopeMark ∉ d.label.toList :=
    fun hd => hc.root_plain (hmeta hd) hd
  have hnone : ∀ a, (bootstrap m).implicitForOwned? a = none := fun a => ExtTreeMap.getElem?_empty
  have hno : ∀ r, ¬ (bootstrap m).HasRecord r := by
    intro r hr
    rw [HasRecord, hnone] at hr
    simp at hr
  have hrel : ∀ t, (bootstrap m).implicitForRelation? t = none := fun t => ExtTreeMap.getElem?_empty
  refine ⟨?_, ?_, ?_, ?_, ?_, ?_, ?_, ?_, ?_, ?_⟩
  · intro a r hr
    simp [hnone] at hr
  · intro t r
    simp [hrel, hno]
  · exact fun r hr => absurd hr (hno r)
  · exact fun t d hd hi => absurd hi (hplain hd).1
  · intro t d a hd ha
    rw [TypeDef.implicitFor?, (bootstrap_bare hm hd).body] at ha
    cases hk : d.kind <;> simp [hk, TypeBody.blank] at ha
  · exact fun t d hd _ => (hplain hd).2
  · exact fun r _ _ hr => absurd hr (hno r)
  · exact fun r _ hr => absurd hr (hno r)
  · exact fun r _ hr => absurd hr (hno r)
  · rintro t a ⟨d, hd, ha⟩
    exact absurd (Or.inr (Or.inr ha)) ((bootstrap_bare hm hd).not_refersTo a)

/-! ## Edits that leave the records alone -/

theorem hasRecord_congr (h : s'.implicitByOwned = s.implicitByOwned) : s'.HasRecord r ↔ s.HasRecord r := by
  rw [HasRecord, Schema.implicitForOwned?, h]
  rfl

/-- a record whose elements stay as they are stays a record -/
theorem Backs.keep (h : s.Backs r d) (hmeta : s'.metaTypes = s.metaTypes)
    (hmade : ∀ x, r.Made x → s'.get? x = s.get? x ∧ s'.directSupertype? x = s.directSupertype? x)
    (hd : s'.get? r.owned = some d') (hl : d'.label = d.label) (hk : d'.kind = d.kind)
    (hleaf : ∀ x y, r.Made y → s'.directSupertype? x ≠ some y) : s'.Backs r d' := by
  obtain ⟨hrel, hrelp⟩ := hmade r.relation (Or.inl rfl)
  obtain ⟨hown, hownp⟩ := hmade r.ownerRole (Or.inr (Or.inl rfl))
  obtain ⟨hval, hvalp⟩ := hmade r.valueRole (Or.inr (Or.inr rfl))
  refine ⟨hd, hk.trans h.kind, ?_, ?_, ?_, ?_, ?_, ?_, ?_, hleaf⟩
  · rw [TypeDef.isImplicit, hl]
    exact h.plain
  · rw [hrel, hl, h.relation]
  · rw [hown, hl, h.ownerRole]
  · rw [hval, hl, h.valueRole]
  · rw [hrelp, hmeta, h.relationParent]
  · rw [hownp, hmeta, h.ownerParent]
  · rw [hvalp, hmeta, h.valueParent]

/-- an edit that leaves the tables alone has to see to the elements of records, and to what is declared about them -/
theorem Recorded.edited (h : s.Recorded) (hto : s'.implicitByOwned = s.implicitByOwned)
    (htr : s'.implicitByRelation = s.implicitByRelation)
    (hbacked : ∀ r d, s.HasRecord r → s.Backs r d → ∃ d', s'.Backs r d')
    (hdef : ∀ x e, s'.get? x = some e → (¬ e.isImplicit ∧ Label.scopeMark ∉ e.label.toList ∧ e.implicitFor? = none) ∨
      ∃ e', s.get? x = some e' ∧ e'.implicitFor? = e.implicitFor? ∧ ((e.isImplicit ∧ e'.isImplicit) ∨ e.label = e'.label))
    (hrelates : ∀ r x role, s.HasRecord r → role = r.ownerRole ∨ role = r.valueRole →
      s'.DeclaresRelates x role → s.DeclaresRelates x role)
    (howner : ∀ r x, s.HasRecord r → (s'.DeclaresPlays x r.ownerRole ↔ s'.DeclaresOwns x r.owned))
    (hvalue : ∀ r x, s.HasRecord r → (s'.DeclaresPlays x r.valueRole ↔ s.DeclaresPlays x r.valueRole))
    (howned : ∀ x a, s'.DeclaresOwns x a → s.DeclaresOwns x a ∨ ∃ r, s.HasRecord r ∧ r.owned = a) : s'.Recorded where
  byOwned a r hr := by
    rw [Schema.implicitForOwned?, hto] at hr
    exact h.byOwned a r hr
  byRelation x r := by
    rw [hasRecord_congr hto, Schema.implicitForRelation?, htr]
    exact h.byRelation x r
  backed r hr := by
    rw [hasRecord_congr hto] at hr
    obtain ⟨d, hb⟩ := h.backed r hr
    exact hbacked r d hr hb
  reserved x e he himp := by
    simp only [hasRecord_congr hto]
    rcases hdef x e he with ⟨hn, -⟩ | ⟨e', he', -, ⟨-, hi⟩ | hl⟩
    · exact absurd himp hn
    · exact h.reserved x e' he' hi
    · exact h.reserved x e' he' ((TypeDef.isImplicit_congr hl).1 himp)
  marked x e a he ha := by
    rcases hdef x e he with ⟨-, -, hf⟩ | ⟨e', he', hf, ⟨hi, -⟩ | hl⟩
    · simp [hf] at ha
    · exact hi
    · exact (TypeDef.isImplicit_congr hl).2 (h.marked x e' a he' (hf.trans ha))
  unscoped x e he himp := by
    rcases hdef x e he with ⟨-, hs, -⟩ | ⟨e', he', -, ⟨hi, -⟩ | hl⟩
    · exact hs
    · exact absurd hi himp
    · rw [hl]
      exact h.unscoped x e' he' fun hi => himp ((TypeDef.isImplicit_congr hl).2 hi)
  relates r x role hr hrole hx := by
    rw [hasRecord_congr hto] at hr
    exact h.relates r x role hr hrole (hrelates r x role hr hrole hx)
  ownerPlays r x hr := howner r x ((hasRecord_congr hto).1 hr)
  valuePlays r x hr := by
    rw [hasRecord_congr hto] at hr
    exact (hvalue r x hr).trans (h.valuePlays r x hr)
  owned x a hx := by
    simp only [hasRecord_congr hto]
    rcases howned x a hx with hx | hr
    · exact h.owned x a hx
    · exact hr

section Declared

variable (hget : ∀ x, s'.get? x = if x = t then some d else s.get? x)

include hget

/-- what is declared where one definition is new or another one -/
theorem declaresPlays_set (x role : TypeId) :
    s'.DeclaresPlays x role ↔ if x = t then role ∈ d.plays else s.DeclaresPlays x role := by
  simp only [DeclaresPlays, hget]
  by_cases hx : x = t <;> simp [hx]

theorem declaresRelates_set (x role : TypeId) :
    s'.DeclaresRelates x role ↔ if x = t then d.relatesRole role = true else s.DeclaresRelates x role := by
  simp only [DeclaresRelates, hget]
  by_cases hx : x = t <;> simp [hx]

theorem declaresOwns_set (x a : TypeId) :
    s'.DeclaresOwns x a ↔ if x = t then a ∈ d.owns else s.DeclaresOwns x a := by
  simp only [DeclaresOwns, hget]
  by_cases hx : x = t <;> simp [hx]

end Declared

/-- nothing comes to stand below what is made for a record, if nothing is put there -/
theorem Backs.leaf_placed (h : s.Backs r d) (hp : ¬ r.Made p)
    (hpar : ∀ x, s'.directSupertype? x = if x = t then some p else s.directSupertype? x) (x y : TypeId) (hy : r.Made y) :
    s'.directSupertype? x ≠ some y := by
  rw [hpar]
  split
  · intro hpy
    exact hp (Option.some.inj hpy ▸ hy)
  · exact h.leaf x y hy

theorem Backs.insert (h : s.Backs r d') (hs : s.Indexed) (hi : s.insert t d p = .ok s') (hn : s.get? t = none)
    (hp : ¬ r.Made p) : s'.Backs r d' := by
  have hne : ∀ {x e}, s.get? x = some e → x ≠ t := by
    rintro x e he rfl
    simp [hn] at he
  have hpar := directSupertype?_insert hi hs hn
  obtain ⟨hmeta, -, -⟩ := tables_insert hi
  refine h.keep hmeta ?_ ?_ rfl rfl (h.leaf_placed hp hpar)
  · intro x hx
    obtain ⟨e, he, -⟩ := h.made_implicit hx
    rw [get?_insert hi, hpar, if_neg (hne he), if_neg (hne he)]
    exact ⟨rfl, rfl⟩
  · rw [get?_insert hi, if_neg (hne h.owned), h.owned]

theorem Backs.redefine {e : TypeDef} (h : s.Backs r e) (hd : s.get? t = some d) (ht : ¬ r.Made t)
    (hl : d'.label = d.label) (hk : d'.kind = d.kind) : ∃ e', (s.redefine t d').Backs r e' := by
  have hget := get?_redefine s t d'
  have howned : ∃ e', (s.redefine t d').get? r.owned = some e' ∧ e'.label = e.label ∧ e'.kind = e.kind := by
    rw [hget]
    split
    · rename_i ho
      obtain rfl := Option.some.inj ((ho ▸ hd).symm.trans h.owned)
      exact ⟨d', rfl, hl, hk⟩
    · exact ⟨e, h.owned, rfl, rfl⟩
  obtain ⟨e', he', hel, hek⟩ := howned
  refine ⟨e', h.keep rfl (fun x hx => ⟨?_, rfl⟩) he' hel hek h.leaf⟩
  rw [hget, if_neg]
  rintro rfl
  exact ht hx

theorem Backs.reparent {old : Option TypeId} (h : s.Backs r d) (hs : s.Indexed) (hm : s.reparent t p = .ok (old, s'))
    (ht : ¬ r.Made t) (hp : ¬ r.Made p) : s'.Backs r d := by
  have hpar := directSupertype?_reparent hm hs
  obtain ⟨-, -, hmeta, -, -⟩ := tables_reparent hm
  refine h.keep hmeta (fun x hx => ?_) (by rw [get?_reparent hm, h.owned]) rfl rfl (h.leaf_placed hp hpar)
  rw [hpar, if_neg]
  · exact ⟨get?_reparent hm x, rfl⟩
  · rintro rfl
    exact ht hx

/-- a new element of a user, which declares nothing yet -/
theorem insert_recorded (hc : s.Coherent) (h : s.Recorded) (hi : s.insert t d p = .ok s') (hn : s.get? t = none)
    (hplain : ¬ d.isImplicit) (hun : Label.scopeMark ∉ d.label.toList) (hno : ∀ x, ¬ d.RefersTo x)
    (hfor : d.implicitFor? = none) (hp : ∀ r, s.HasRecord r → ¬ r.Made p) : s'.Recorded := by
  have hget := get?_insert hi
  obtain ⟨-, hto, htr⟩ := tables_insert hi
  have hplays : ∀ x role, s'.DeclaresPlays x role ↔ s.DeclaresPlays x role := by
    intro x role
    rw [declaresPlays_set hget]
    split
    · rename_i hx
      simpa [DeclaresPlays, hx, hn] using fun hr => hno role (Or.inl hr)
    · rfl
  have howns : ∀ x a, s'.DeclaresOwns x a ↔ s.DeclaresOwns x a := by
    intro x a
    rw [declaresOwns_set hget]
    split
    · rename_i hx
      simpa [DeclaresOwns, hx, hn] using fun hr => hno a (Or.inr (Or.inr hr))
    · rfl
  refine h.edited hto htr ?_ ?_ ?_ ?_ ?_ ?_
  · exact fun r e hr hb => ⟨e, hb.insert hc.indexed hi hn (hp r hr)⟩
  · intro x e he
    rw [hget] at he
    split at he
    · obtain rfl := Option.some.inj he
      exact Or.inl ⟨hplain, hun, hfor⟩
    · exact Or.inr ⟨e, he, rfl, Or.inr rfl⟩
  · intro r x role hr hrole hx
    rw [declaresRelates_set hget] at hx
    split at hx
    · exact absurd (Or.inr (Or.inl hx)) (hno role)
    · exact hx
  · intro r x hr
    rw [hplays, howns]
    exact h.ownerPlays r x hr
  · exact fun r x _ => hplays x _
  · exact fun x a hx => Or.inl ((howns x a).1 hx)

/-- another definition of a user's element, which says about the roles of records what it has to -/
theorem redefine_recorded (h : s.Recorded) (hd : s.get? t = some d) (hplain : ¬ d.isImplicit)
    (hl : d'.label = d.label) (hk : d'.kind = d.kind) (hfor : d'.implicitFor? = d.implicitFor?)
    (hrelates : ∀ r, s.HasRecord r → ¬ d'.relatesRole r.ownerRole ∧ ¬ d'.relatesRole r.valueRole)
    (howner : ∀ r, s.HasRecord r → (r.ownerRole ∈ d'.plays ↔ r.owned ∈ d'.owns))
    (hvalue : ∀ r, s.HasRecord r → (r.valueRole ∈ d'.plays ↔ r.valueRole ∈ d.plays))
    (howned : ∀ a ∈ d'.owns, ∃ r, s.HasRecord r ∧ r.owned = a) : (s.redefine t d').Recorded := by
  have hget := get?_redefine s t d'
  refine h.edited rfl rfl ?_ ?_ ?_ ?_ ?_ ?_
  · exact fun r e hr hb => hb.redefine hd (fun hm => hplain (h.implicit_of_made hr hm hd)) hl hk
  · intro x e he
    rw [hget] at he
    split at he
    · rename_i hx
      obtain rfl := Option.some.inj he
      exact Or.inr ⟨d, hx ▸ hd, hfor.symm, Or.inr hl⟩
    · exact Or.inr ⟨e, he, rfl, Or.inr rfl⟩
  · intro r x role hr hrole hx
    rw [declaresRelates_set hget] at hx
    split at hx
    · rcases hrole with rfl | rfl
      · exact absurd hx (hrelates r hr).1
      · exact absurd hx (hrelates r hr).2
    · exact hx
  · intro r x hr
    rw [declaresPlays_set hget, declaresOwns_set hget]
    split
    · exact howner r hr
    · exact h.ownerPlays r x hr
  · intro r x hr
    rw [declaresPlays_set hget]
    split
    · rename_i hx
      rw [hvalue r hr, DeclaresPlays, hx, hd]
      simp
    · rfl
  · intro x a hx
    rw [declaresOwns_set hget] at hx
    split at hx
    · exact Or.inr (howned a hx)
    · exact Or.inl hx

theorem reparent_recorded {old : Option TypeId} (hc : s.Coherent) (h : s.Recorded)
    (hm : s.reparent t p = .ok (old, s')) (ht : ∀ r, s.HasRecord r → ¬ r.Made t)
    (hp : ∀ r, s.HasRecord r → ¬ r.Made p) : s'.Recorded := by
  have hget := get?_reparent hm
  obtain ⟨-, -, -, hto, htr⟩ := tables_reparent hm
  have hplays : ∀ x role, s'.DeclaresPlays x role ↔ s.DeclaresPlays x role := fun x role => by
    simp only [DeclaresPlays, hget]
  have howns : ∀ x a, s'.DeclaresOwns x a ↔ s.DeclaresOwns x a := fun x a => by simp only [DeclaresOwns, hget]
  refine h.edited hto htr ?_ ?_ ?_ ?_ ?_ ?_
  · exact fun r e hr hb => ⟨e, hb.reparent hc.indexed hm (ht r hr) (hp r hr)⟩
  · intro x e he
    rw [hget] at he
    exact Or.inr ⟨e, he, rfl, Or.inr rfl⟩
  · intro r x role _ _ hx
    simpa only [DeclaresRelates, hget] using hx
  · intro r x hr
    rw [hplays, howns]
    exact h.ownerPlays r x hr
  · exact fun r x _ => hplays x _
  · exact fun x a hx => Or.inl ((howns x a).1 hx)

end Schema

end ConceptGraph
