/-
Declaring for the first time that an attribute type is owned, which makes a record of it: a relation type with two roles.

- `insertImplicit_total`: no step of it is refused, since the labels that go with an attribute type without a record are
  free.
- `WithRecord`: all that comes of it. `insertImplicit_spec`: the schema stays coherent and its records stay records.
-/
import ConceptGraph.Proofs.Schema.OwnershipRecords
import ConceptGraph.Session.SchemaEdits

namespace ConceptGraph

open Std

namespace Schema

variable {s s' : Schema} {t a p x : TypeId} {d d' : TypeDef} {r r' : ImplicitOwnership}

/-! ## A new record -/

/-- identifiers for the elements of a record that are not in use -/
structure FreshFor (s : Schema) (r : ImplicitOwnership) : Prop where
  unused : ∀ x, r.Made x → s.get? x = none
  relation_ne_owner : r.relation ≠ r.ownerRole
  relation_ne_value : r.relation ≠ r.valueRole
  owner_ne_value : r.ownerRole ≠ r.valueRole

theorem FreshFor.not_defined (hf : s.FreshFor r) (hd : s.get? x = some d) : ¬ r.Made x := by
  intro hx
  rw [hf.unused x hx] at hd
  simp at hd

theorem FreshFor.ne_defined (hf : s.FreshFor r) (hd : s.get? a = some d) (hx : r.Made x) : x ≠ a := by
  rintro rfl
  exact hf.not_defined hd hx

/-- records that were there before keep clear of the new one -/
theorem FreshFor.not_made (hf : s.FreshFor r) (h : s.Recorded) {q : ImplicitOwnership} (hq : s.HasRecord q)
    (hx : r.Made x) : ¬ q.Made x := by
  intro hm
  obtain ⟨e, hb⟩ := h.backed q hq
  obtain ⟨g, hg, -⟩ := hb.made_implicit hm
  exact hf.not_defined hg hx

theorem insertImplicit_eq_ok {l : Label} : Transaction.insertImplicit s r l = .ok s' ↔ ∃ s₁ s₂ s₃ d,
    s.insert r.ownerRole (.blank (Label.ownerRole l) .role) s.metaTypes.roleRoot = .ok s₁ ∧
    s₁.insert r.valueRole (.blank (Label.valueRole l) .role) s.metaTypes.roleRoot = .ok s₂ ∧
    s₂.insert r.relation (r.relationDef l) s.metaTypes.relationRoot = .ok s₃ ∧ s₃.get? r.owned = some d ∧
    s' = (s₃.redefine r.owned { d with plays := d.plays.insert r.valueRole }).registerImplicit r := by
  simp only [Transaction.insertImplicit, bind_eq_ok, change_eq_ok, pure_eq_ok]
  constructor
  · rintro ⟨s₁, h₁, s₂, h₂, s₃, h₃, s₄, ⟨d, hd, rfl⟩, rfl⟩
    exact ⟨s₁, s₂, s₃, d, h₁, h₂, h₃, hd, rfl⟩
  · rintro ⟨s₁, s₂, s₃, d, h₁, h₂, h₃, hd, rfl⟩
    exact ⟨s₁, h₁, s₂, h₂, s₃, h₃, _, ⟨d, hd, rfl⟩, rfl⟩

section InsertImplicit

variable {l : Label} {s₁ s₂ s₃ : Schema} (hf : s.FreshFor r)
  (h₁ : s.insert r.ownerRole (.blank (Label.ownerRole l) .role) s.metaTypes.roleRoot = .ok s₁)
  (h₂ : s₁.insert r.valueRole (.blank (Label.valueRole l) .role) s.metaTypes.roleRoot = .ok s₂)
  (h₃ : s₂.insert r.relation (r.relationDef l) s.metaTypes.relationRoot = .ok s₃)

include h₁ h₂ h₃

theorem get?_insertImplicit (x : TypeId) : s₃.get? x = if x = r.relation then some (r.relationDef l)
    else if x = r.valueRole then some (.blank (Label.valueRole l) .role)
    else if x = r.ownerRole then some (.blank (Label.ownerRole l) .role) else s.get? x := by
  rw [get?_insert h₃, get?_insert h₂, get?_insert h₁]

theorem get?_insertImplicit_other (hx : ¬ r.Made x) : s₃.get? x = s.get? x := by
  rw [get?_insertImplicit h₁ h₂ h₃, if_neg, if_neg, if_neg]
  · exact fun he => hx (Or.inr (Or.inl he))
  · exact fun he => hx (Or.inr (Or.inr he))
  · exact fun he => hx (Or.inl he)

theorem tables_insertImplicit : s₃.metaTypes = s.metaTypes ∧ s₃.implicitByOwned = s.implicitByOwned ∧
    s₃.implicitByRelation = s.implicitByRelation := by
  obtain ⟨hm₁, ho₁, hr₁⟩ := tables_insert h₁
  obtain ⟨hm₂, ho₂, hr₂⟩ := tables_insert h₂
  obtain ⟨hm₃, ho₃, hr₃⟩ := tables_insert h₃
  exact ⟨hm₃.trans (hm₂.trans hm₁), ho₃.trans (ho₂.trans ho₁), hr₃.trans (hr₂.trans hr₁)⟩

include hf

omit h₃ in
theorem unused_insertImplicit : s.get? r.ownerRole = none ∧ s₁.get? r.valueRole = none ∧ s₂.get? r.relation = none := by
  refine ⟨hf.unused _ (Or.inr (Or.inl rfl)), ?_, ?_⟩
  · rw [get?_insert h₁, if_neg hf.owner_ne_value.symm]
    exact hf.unused _ (Or.inr (Or.inr rfl))
  · rw [get?_insert h₂, if_neg hf.relation_ne_value, get?_insert h₁, if_neg hf.relation_ne_owner]
    exact hf.unused _ (Or.inl rfl)

theorem coherent_insertImplicit (hc : s.Coherent) : s₁.Coherent ∧ s₂.Coherent ∧ s₃.Coherent := by
  obtain ⟨hn₁, hn₂, hn₃⟩ := unused_insertImplicit hf h₁ h₂
  have hm₁ := (tables_insert h₁).1
  have hm₂ := (tables_insert h₂).1.trans hm₁
  have norefs : ∀ {s : Schema} {l : Label}, s.RefsDefined (.blank l .role) := by
    intro s l
    apply refsDefined_of_no_refs
    intro x hx
    rcases hx with hx | hx | hx
    · exact TypeDef.not_mem_blank_plays hx
    · simp [TypeDef.relatesRole, TypeDef.relates?, TypeDef.blank] at hx
    · exact TypeDef.not_mem_blank_owns hx
  have hc₁ : s₁.Coherent :=
    insert_coherent hc h₁ hn₁ norefs (hc.ofKind_ne_thingRoot .role) (hc.ofKind_hasKind .role)
  have hc₂ : s₂.Coherent := by
    refine insert_coherent hc₁ h₂ hn₂ norefs ?_ ?_
    · rw [← hm₁]
      exact hc₁.ofKind_ne_thingRoot .role
    · rw [← hm₁]
      exact hc₁.ofKind_hasKind .role
  refine ⟨hc₁, hc₂, insert_coherent hc₂ h₃ hn₃ ⟨?_, ?_, ?_⟩ ?_ ?_⟩
  · exact fun x hx => absurd hx TypeDef.not_mem_blank_plays
  · intro x hx
    have hmem := (r.relatesRole_relationDef l x).1 hx
    rcases hmem with rfl | rfl
    · exact ⟨_, by rw [get?_insert h₂, if_neg hf.owner_ne_value, get?_insert h₁, if_pos rfl], rfl⟩
    · exact ⟨_, by rw [get?_insert h₂, if_pos rfl], rfl⟩
  · exact fun x hx => absurd hx TypeDef.not_mem_blank_owns
  · rw [← hm₂]
    exact hc₂.ofKind_ne_thingRoot .relation
  · rw [← hm₂]
    exact hc₂.ofKind_hasKind .relation

theorem directSupertype?_insertImplicit (hc : s.Coherent) (x : TypeId) : s₃.directSupertype? x =
    if x = r.relation then some s.metaTypes.relationRoot
    else if x = r.valueRole ∨ x = r.ownerRole then some s.metaTypes.roleRoot else s.directSupertype? x := by
  obtain ⟨hn₁, hn₂, hn₃⟩ := unused_insertImplicit hf h₁ h₂
  obtain ⟨hc₁, hc₂, -⟩ := coherent_insertImplicit hf h₁ h₂ h₃ hc
  rw [directSupertype?_insert h₃ hc₂.indexed hn₃, directSupertype?_insert h₂ hc₁.indexed hn₂,
    directSupertype?_insert h₁ hc.indexed hn₁]
  by_cases hr : x = r.relation
  · simp [hr]
  · by_cases hv : x = r.valueRole
    · simp [hv]
    · by_cases ho : x = r.ownerRole <;> simp [hr, hv, ho]

end InsertImplicit

/-- the three elements find their labels free, and the types that they go under where they were -/
theorem insertImplicit_total (hc : s.Coherent) (h : s.Recorded) (hf : s.FreshFor r) (hd : s.get? r.owned = some d)
    (hplain : ¬ d.isImplicit) (hn : s.implicitForOwned? r.owned = none) :
    ∃ s', Transaction.insertImplicit s r d.label = .ok s' := by
  have hfree : ∀ {l}, Label.MadeFor d.label l → s.idOf? l = none := fun hl => h.madeFor_free hc.indexed hd hplain hn hl
  have hun := h.unscoped _ _ hd hplain
  obtain ⟨e, he, hek⟩ : s.HasKind s.metaTypes.roleRoot .role := hc.ofKind_hasKind .role
  obtain ⟨f, hf', hfk⟩ : s.HasKind s.metaTypes.relationRoot .relation := hc.ofKind_hasKind .relation
  have hrole : e.isRole = true := by rw [TypeDef.isRole, hek]; rfl
  have hrel : f.isRole = false := by rw [TypeDef.isRole, hfk]; rfl
  -- the owner's role
  have hn₁ : s.get? r.ownerRole = none := hf.unused _ (Or.inr (Or.inl rfl))
  obtain ⟨s₁, h₁⟩ := insert_total hc.indexed (d := .blank (Label.ownerRole d.label) .role) hn₁
    (hfree (Or.inr (Or.inl rfl))) he hrole
  have hi₁ := insert_indexed h₁ hc.indexed hn₁
  -- the attribute's role
  have hn₂ : s₁.get? r.valueRole = none := by
    rw [get?_insert h₁, if_neg hf.owner_ne_value.symm]
    exact hf.unused _ (Or.inr (Or.inr rfl))
  have hl₂ : s₁.idOf? (Label.valueRole d.label) = none := by
    rw [idOf?_insert h₁, TypeDef.label_blank, if_neg (Label.ownerRole_ne_valueRole _ _).symm]
    exact hfree (Or.inr (Or.inr rfl))
  have he₂ : s₁.get? s.metaTypes.roleRoot = some e := by
    rw [get?_insert h₁, if_neg (hf.ne_defined he (Or.inr (Or.inl rfl))).symm, he]
  obtain ⟨s₂, h₂⟩ := insert_total hi₁ (d := .blank (Label.valueRole d.label) .role) hn₂ hl₂ he₂ hrole
  -- the relation type
  obtain ⟨-, -, hn₃⟩ := unused_insertImplicit hf h₁ h₂
  have hl₃ : s₂.idOf? (r.relationDef d.label).label = none := by
    rw [ImplicitOwnership.label_relationDef, idOf?_insert h₂, TypeDef.label_blank,
      if_neg (Label.ownershipRelation_ne_valueRole hun _), idOf?_insert h₁, TypeDef.label_blank,
      if_neg (Label.ownershipRelation_ne_ownerRole hun _)]
    exact hfree (Or.inl rfl)
  have hf₃ : s₂.get? s.metaTypes.relationRoot = some f := by
    rw [get?_insert h₂, if_neg (hf.ne_defined hf' (Or.inr (Or.inr rfl))).symm, get?_insert h₁,
      if_neg (hf.ne_defined hf' (Or.inr (Or.inl rfl))).symm, hf']
  obtain ⟨s₃, h₃⟩ := insert_total (insert_indexed h₂ hi₁ hn₂) hn₃ hl₃ hf₃ hrel
  have howned : s₃.get? r.owned = some d := by rw [get?_insertImplicit_other h₁ h₂ h₃ (hf.not_defined hd), hd]
  exact ⟨_, insertImplicit_eq_ok.2 ⟨s₁, s₂, s₃, d, h₁, h₂, h₃, howned, rfl⟩⟩

theorem registerImplicit_coherent (hc : s.Coherent) (r : ImplicitOwnership) : (s.registerImplicit r).Coherent where
  indexed := ⟨hc.indexed.forests, hc.indexed.node, hc.indexed.label⟩
  refs x e he := ⟨(hc.refs x e he).plays, (hc.refs x e he).relates, (hc.refs x e he).owns⟩
  nodup := hc.nodup
  roots := hc.roots
  parented := hc.parented

/-- what a schema with a new record is: its three elements, the attribute type playing its role, and the tables -/
structure WithRecord (s s' : Schema) (r : ImplicitOwnership) (d : TypeDef) : Prop where
  owned : s'.get? r.owned = some { d with plays := d.plays.insert r.valueRole }
  relation : s'.get? r.relation = some (r.relationDef d.label)
  ownerRole : s'.get? r.ownerRole = some (.blank (Label.ownerRole d.label) .role)
  valueRole : s'.get? r.valueRole = some (.blank (Label.valueRole d.label) .role)
  other : ∀ x, x ≠ r.owned → ¬ r.Made x → s'.get? x = s.get? x
  relationParent : s'.directSupertype? r.relation = some s.metaTypes.relationRoot
  ownerParent : s'.directSupertype? r.ownerRole = some s.metaTypes.roleRoot
  valueParent : s'.directSupertype? r.valueRole = some s.metaTypes.roleRoot
  otherParent : ∀ x, ¬ r.Made x → s'.directSupertype? x = s.directSupertype? x
  metas : s'.metaTypes = s.metaTypes
  byOwned : ∀ a, s'.implicitForOwned? a = if a = r.owned then some r else s.implicitForOwned? a
  byRelation : ∀ a, s'.implicitForRelation? a = if a = r.relation then some r else s.implicitForRelation? a

section Registered

variable {s₁ s₂ s₃ : Schema} (hc : s.Coherent) (hf : s.FreshFor r) (hd : s.get? r.owned = some d)
  (h₁ : s.insert r.ownerRole (.blank (Label.ownerRole d.label) .role) s.metaTypes.roleRoot = .ok s₁)
  (h₂ : s₁.insert r.valueRole (.blank (Label.valueRole d.label) .role) s.metaTypes.roleRoot = .ok s₂)
  (h₃ : s₂.insert r.relation (r.relationDef d.label) s.metaTypes.relationRoot = .ok s₃)

include hc hf hd h₁ h₂ h₃

theorem withRecord_registered :
    s.WithRecord ((s₃.redefine r.owned { d with plays := d.plays.insert r.valueRole }).registerImplicit r) r d := by
  have hget := get?_insertImplicit h₁ h₂ h₃
  have hpar := directSupertype?_insertImplicit hf h₁ h₂ h₃ hc
  obtain ⟨hm, ho, hr⟩ := tables_insertImplicit h₁ h₂ h₃
  have hkeep : ∀ x, x ≠ r.owned → ((s₃.redefine r.owned { d with plays := d.plays.insert r.valueRole }).registerImplicit
      r).get? x = s₃.get? x := by
    intro x hx
    exact (get?_redefine _ _ _ x).trans (if_neg hx)
  refine ⟨?_, ?_, ?_, ?_, ?_, ?_, ?_, ?_, ?_, hm, ?_, ?_⟩
  · exact (get?_redefine _ _ _ _).trans (if_pos rfl)
  · rw [hkeep _ (hf.ne_defined hd (Or.inl rfl)), hget, if_pos rfl]
  · rw [hkeep _ (hf.ne_defined hd (Or.inr (Or.inl rfl))), hget, if_neg hf.relation_ne_owner.symm,
      if_neg hf.owner_ne_value, if_pos rfl]
  · rw [hkeep _ (hf.ne_defined hd (Or.inr (Or.inr rfl))), hget, if_neg hf.relation_ne_value.symm, if_pos rfl]
  · intro x hx hm
    rw [hkeep x hx, get?_insertImplicit_other h₁ h₂ h₃ hm]
  · exact (hpar _).trans (if_pos rfl)
  · apply (hpar _).trans
    rw [if_neg hf.relation_ne_owner.symm, if_pos (Or.inr rfl)]
  · apply (hpar _).trans
    rw [if_neg hf.relation_ne_value.symm, if_pos (Or.inl rfl)]
  · intro x hx
    apply (hpar x).trans
    rw [if_neg fun he => hx (Or.inl he), if_neg]
    intro hcase
    rcases hcase with he | he
    · exact hx (Or.inr (Or.inr he))
    · exact hx (Or.inr (Or.inl he))
  · intro a
    apply (lookup_insert ..).trans
    rw [Schema.implicitForOwned?, ← ho]
    rfl
  · intro a
    apply (lookup_insert ..).trans
    rw [Schema.implicitForRelation?, ← hr]
    rfl

theorem coherent_registered (hmeta : ¬ s.isMeta r.owned) :
    ((s₃.redefine r.owned { d with plays := d.plays.insert r.valueRole }).registerImplicit r).Coherent := by
  obtain ⟨-, -, hc₃⟩ := coherent_insertImplicit hf h₁ h₂ h₃ hc
  obtain ⟨hm, -, -⟩ := tables_insertImplicit h₁ h₂ h₃
  have howned := (get?_insertImplicit_other h₁ h₂ h₃ (hf.not_defined hd)).trans hd
  apply registerImplicit_coherent
  refine redefine_coherent hc₃ howned ?_ rfl rfl ?_
  · exact fun hm' => hmeta ((isMeta_congr hm).1 hm')
  · have hrefs := hc₃.refs _ _ howned
    refine ⟨fun role hrole => ?_, hrefs.relates, hrefs.owns⟩
    rcases mem_set_insert.1 hrole with rfl | hrole
    · exact ⟨_, by rw [get?_insertImplicit h₁ h₂ h₃, if_neg hf.relation_ne_value.symm, if_pos rfl], rfl⟩
    · exact hrefs.plays role hrole

end Registered

theorem insertImplicit_withRecord (hc : s.Coherent) (hf : s.FreshFor r) (hd : s.get? r.owned = some d)
    (h : Transaction.insertImplicit s r d.label = .ok s') (hmeta : ¬ s.isMeta r.owned) :
    s.WithRecord s' r d ∧ s'.Coherent := by
  obtain ⟨s₁, s₂, s₃, e, h₁, h₂, h₃, he, rfl⟩ := insertImplicit_eq_ok.1 h
  have howned := (get?_insertImplicit_other h₁ h₂ h₃ (hf.not_defined hd)).trans hd
  obtain rfl := Option.some.inj (howned.symm.trans he)
  exact ⟨withRecord_registered hc hf hd h₁ h₂ h₃, coherent_registered hc hf hd h₁ h₂ h₃ hmeta⟩

section WithRecord

variable (hw : s.WithRecord s' r d) (hf : s.FreshFor r) (hd : s.get? r.owned = some d)
  (hn : s.implicitForOwned? r.owned = none)

include hw

include hn in
theorem hasRecord_withRecord (q : ImplicitOwnership) : s'.HasRecord q ↔ q = r ∨ s.HasRecord q := by
  rw [HasRecord, hw.byOwned]
  split
  · rename_i ho
    constructor
    · intro hq
      exact Or.inl (Option.some.inj hq).symm
    · intro hcase
      rcases hcase with rfl | hq
      · rfl
      · rw [HasRecord, ho, hn] at hq
        simp at hq
  · rename_i ho
    constructor
    · exact Or.inr
    · intro hcase
      rcases hcase with rfl | hq
      · exact absurd rfl ho
      · exact hq

/-- what is new plays no role and owns no attribute type -/
theorem blank_withRecord {e : TypeDef} (hx : r.Made x) (he : s'.get? x = some e) (y : TypeId) :
    y ∉ e.plays ∧ y ∉ e.owns := by
  rcases hx with rfl | rfl | rfl
  · rw [hw.relation] at he
    exact Option.some.inj he ▸ ⟨TypeDef.not_mem_blank_plays, TypeDef.not_mem_blank_owns⟩
  · rw [hw.ownerRole] at he
    exact Option.some.inj he ▸ ⟨TypeDef.not_mem_blank_plays, TypeDef.not_mem_blank_owns⟩
  · rw [hw.valueRole] at he
    exact Option.some.inj he ▸ ⟨TypeDef.not_mem_blank_plays, TypeDef.not_mem_blank_owns⟩

include hf hd

theorem declaresPlays_withRecord (x role : TypeId) :
    s'.DeclaresPlays x role ↔ s.DeclaresPlays x role ∨ (x = r.owned ∧ role = r.valueRole) := by
  by_cases hx : r.Made x
  · refine iff_of_false ?_ ?_
    · rintro ⟨e, he, hr⟩
      exact (blank_withRecord hw hx he _).1 hr
    · intro hcase
      rcases hcase with ⟨e, he, -⟩ | ⟨he, -⟩
      · exact hf.ne_defined he hx rfl
      · exact hf.ne_defined hd hx he
  · by_cases hxo : x = r.owned
    · subst hxo
      simp only [DeclaresPlays, hw.owned, hd, Option.some.injEq, exists_eq_left', mem_set_insert, true_and]
      exact or_comm
    · simp [DeclaresPlays, hw.other x hxo hx, hxo]

theorem declaresOwns_withRecord (x a : TypeId) : s'.DeclaresOwns x a ↔ s.DeclaresOwns x a := by
  by_cases hx : r.Made x
  · refine iff_of_false ?_ ?_
    · rintro ⟨e, he, hr⟩
      exact (blank_withRecord hw hx he _).2 hr
    · rintro ⟨e, he, -⟩
      exact hf.ne_defined he hx rfl
  · by_cases hxo : x = r.owned
    · subst hxo
      simp [DeclaresOwns, hw.owned, hd]
    · simp [DeclaresOwns, hw.other x hxo hx]

theorem declaresRelates_withRecord (x role : TypeId) : s'.DeclaresRelates x role ↔
    s.DeclaresRelates x role ∨ (x = r.relation ∧ (role = r.ownerRole ∨ role = r.valueRole)) := by
  by_cases hx : r.Made x
  · have hold : ¬ s.DeclaresRelates x role := by
      rintro ⟨e, he, -⟩
      exact hf.ne_defined he hx rfl
    rw [or_iff_right hold]
    rcases hx with rfl | rfl | rfl
    · simp only [DeclaresRelates, hw.relation, Option.some.injEq, exists_eq_left', true_and]
      exact r.relatesRole_relationDef d.label role
    · refine iff_of_false ?_ fun he => hf.relation_ne_owner he.1.symm
      rintro ⟨e, he, hr⟩
      rw [hw.ownerRole] at he
      simp [← Option.some.inj he, TypeDef.relatesRole, TypeDef.relates?, TypeDef.blank] at hr
    · refine iff_of_false ?_ fun he => hf.relation_ne_value he.1.symm
      rintro ⟨e, he, hr⟩
      rw [hw.valueRole] at he
      simp [← Option.some.inj he, TypeDef.relatesRole, TypeDef.relates?, TypeDef.blank] at hr
  · have hxr : x ≠ r.relation := fun he => hx (Or.inl he)
    by_cases hxo : x = r.owned
    · subst hxo
      simp [DeclaresRelates, hw.owned, hd, hxr, TypeDef.relatesRole, TypeDef.relates?]
    · simp [DeclaresRelates, hw.other x hxo hx, hxr]

end WithRecord

/-- nothing is put below an element of a record, be it new or old -/
theorem leaf_withRecord (hw : s.WithRecord s' r d) {y : TypeId} (hroot : ∀ k, s.metaTypes.ofKind k ≠ y)
    (hold : ∀ x, ¬ r.Made x → s.directSupertype? x ≠ some y) (x : TypeId) : s'.directSupertype? x ≠ some y := by
  by_cases hx : r.Made x
  · rcases hx with rfl | rfl | rfl
    · rw [hw.relationParent]
      exact fun he => hroot .relation (Option.some.inj he)
    · rw [hw.ownerParent]
      exact fun he => hroot .role (Option.some.inj he)
    · rw [hw.valueParent]
      exact fun he => hroot .role (Option.some.inj he)
  · rw [hw.otherParent x hx]
    exact hold x hx

theorem backs_withRecord (hw : s.WithRecord s' r d) (hc : s.Coherent) (hf : s.FreshFor r) (hk : d.kind = .attribute)
    (hplain : ¬ d.isImplicit) : s'.Backs r { d with plays := d.plays.insert r.valueRole } := by
  refine ⟨hw.owned, hk, hplain, hw.relation, hw.ownerRole, hw.valueRole, ?_, ?_, ?_, ?_⟩
  · rw [hw.relationParent, hw.metas]
  · rw [hw.ownerParent, hw.metas]
  · rw [hw.valueParent, hw.metas]
  · intro x y hy
    refine leaf_withRecord hw ?_ ?_ x
    · rintro k rfl
      obtain ⟨e, he, -⟩ := hc.ofKind_hasKind k
      exact hf.ne_defined he hy rfl
    · intro x _ he
      obtain ⟨-, e, -, he', -⟩ := hc.indexed.defined_of_directSupertype? he
      exact hf.ne_defined he' hy rfl

theorem backs_other_withRecord (hw : s.WithRecord s' r d) (hc : s.Coherent) (h : s.Recorded) (hf : s.FreshFor r)
    (hd : s.get? r.owned = some d) (hplain : ¬ d.isImplicit) {q : ImplicitOwnership} {e : TypeDef} (hq : s.HasRecord q)
    (hb : s.Backs q e) : ∃ e', s'.Backs q e' := by
  have howned : ∃ e', s'.get? q.owned = some e' ∧ e'.label = e.label ∧ e'.kind = e.kind := by
    by_cases ho : q.owned = r.owned
    · have hb' := hb.owned
      rw [ho, hd] at hb'
      obtain rfl := Option.some.inj hb'
      exact ⟨{ d with plays := d.plays.insert r.valueRole }, by rw [ho]; exact hw.owned, rfl, rfl⟩
    · exact ⟨e, by rw [hw.other _ ho fun hm => hf.ne_defined hb.owned hm rfl, hb.owned], rfl, rfl⟩
  obtain ⟨e', he', hl, hk⟩ := howned
  refine ⟨e', hb.keep hw.metas ?_ he' hl hk ?_⟩
  · intro x hx
    have hxr : ¬ r.Made x := fun hx' => hf.not_made h hq hx' hx
    have hxo : x ≠ r.owned := fun he => hplain (h.implicit_of_made hq hx (he ▸ hd))
    exact ⟨hw.other x hxo hxr, hw.otherParent x hxr⟩
  · intro x y hy
    refine leaf_withRecord hw ?_ (fun x _ => hb.leaf x y hy) x
    rintro k rfl
    exact h.made_not_meta hc hq hy (Coherent.ofKind_isMeta s k)

/-- what is defined beside a new record was defined before, under the same label -/
theorem defined_withRecord (hw : s.WithRecord s' r d) (hd : s.get? r.owned = some d) {e : TypeDef}
    (he : s'.get? x = some e) : (r.Made x ∧ e.isImplicit) ∨
      ∃ e', s.get? x = some e' ∧ e'.label = e.label ∧ e'.implicitFor? = e.implicitFor? := by
  by_cases hx : r.Made x
  · refine Or.inl ⟨hx, ?_⟩
    rcases hx with rfl | rfl | rfl
    · rw [hw.relation] at he
      exact Option.some.inj he ▸ Label.isReserved_ownershipRelation _
    · rw [hw.ownerRole] at he
      exact Option.some.inj he ▸ Label.isReserved_ownerRole _
    · rw [hw.valueRole] at he
      exact Option.some.inj he ▸ Label.isReserved_valueRole _
  · apply Or.inr
    by_cases hxo : x = r.owned
    · subst hxo
      rw [hw.owned] at he
      obtain rfl := Option.some.inj he
      exact ⟨d, hd, rfl, rfl⟩
    · exact ⟨e, by rw [← hw.other x hxo hx, he], rfl, rfl⟩

section NewRecord

variable (hw : s.WithRecord s' r d) (h : s.Recorded) (hf : s.FreshFor r) (hn : s.implicitForOwned? r.owned = none)

include hw h hf hn

theorem byRelation_withRecord (x : TypeId) (q : ImplicitOwnership) :
    s'.implicitForRelation? x = some q ↔ s'.HasRecord q ∧ q.relation = x := by
  rw [hasRecord_withRecord hw hn, hw.byRelation]
  split
  · rename_i hx
    rw [Option.some.injEq]
    constructor
    · rintro rfl
      exact ⟨Or.inl rfl, hx.symm⟩
    · rintro ⟨rfl | hq, hqx⟩
      · rfl
      · exact absurd (Or.inl rfl) (hf.not_made h hq (Or.inl (hqx.trans hx)))
  · rename_i hx
    rw [h.byRelation]
    constructor
    · rintro ⟨hq, hqx⟩
      exact ⟨Or.inr hq, hqx⟩
    · rintro ⟨rfl | hq, hqx⟩
      · exact absurd hqx.symm hx
      · exact ⟨hq, hqx⟩

variable (hc : s.Coherent) (hd : s.get? r.owned = some d) {q : ImplicitOwnership} (hq : s'.HasRecord q)

include hc hd hq

theorem relates_withRecord {role : TypeId} (hqr : role = q.ownerRole ∨ role = q.valueRole)
    (hx : s'.DeclaresRelates x role) : x = q.relation := by
  rcases (hasRecord_withRecord hw hn q).1 hq with rfl | hq
  · rcases (declaresRelates_withRecord hw hf hd x role).1 hx with ⟨e, he, hr⟩ | ⟨hxr, -⟩
    · obtain ⟨f, hf', -⟩ := (hc.refs x e he).relates role hr
      exact absurd rfl (hf.ne_defined hf' (Or.inr hqr))
    · exact hxr
  · rcases (declaresRelates_withRecord hw hf hd x role).1 hx with hx | ⟨-, hr⟩
    · exact h.relates q x role hq hqr hx
    · exact absurd (Or.inr hqr) (hf.not_made h hq (Or.inr hr))

theorem ownerPlays_withRecord : s'.DeclaresPlays x q.ownerRole ↔ s'.DeclaresOwns x q.owned := by
  rw [declaresPlays_withRecord hw hf hd, declaresOwns_withRecord hw hf hd]
  rcases (hasRecord_withRecord hw hn q).1 hq with rfl | hq
  · refine iff_of_false ?_ ?_
    · intro hcase
      rcases hcase with ⟨e, he, hr⟩ | ⟨-, hr⟩
      · obtain ⟨f, hf', -⟩ := (hc.refs x e he).plays _ hr
        exact hf.ne_defined hf' (Or.inr (Or.inl rfl)) rfl
      · exact hf.owner_ne_value hr
    · intro ho
      obtain ⟨q', hq', hqo⟩ := h.owned x _ ho
      rw [HasRecord, hqo, hn] at hq'
      simp at hq'
  · rw [h.ownerPlays q x hq, or_iff_left]
    rintro ⟨-, hr⟩
    exact hf.not_made h hq (Or.inr (Or.inr hr)) (Or.inr (Or.inl rfl))

theorem valuePlays_withRecord : s'.DeclaresPlays x q.valueRole ↔ x = q.owned := by
  rw [declaresPlays_withRecord hw hf hd]
  rcases (hasRecord_withRecord hw hn q).1 hq with rfl | hq
  · rw [or_iff_right]
    · simp
    · rintro ⟨e, he, hr⟩
      obtain ⟨f, hf', -⟩ := (hc.refs x e he).plays _ hr
      exact hf.ne_defined hf' (Or.inr (Or.inr rfl)) rfl
  · rw [h.valuePlays q x hq, or_iff_left]
    rintro ⟨-, hr⟩
    exact hf.not_made h hq (Or.inr (Or.inr hr)) (Or.inr (Or.inr rfl))

end NewRecord

/-- **A new record.** The records that were there stay as they are. -/
theorem withRecord_recorded (hw : s.WithRecord s' r d) (hc : s.Coherent) (h : s.Recorded) (hf : s.FreshFor r)
    (hd : s.get? r.owned = some d) (hk : d.kind = .attribute) (hplain : ¬ d.isImplicit)
    (hn : s.implicitForOwned? r.owned = none) : s'.Recorded := by
  have hhas := hasRecord_withRecord hw hn
  refine ⟨?_, byRelation_withRecord hw h hf hn, ?_, ?_, ?_, ?_,
    fun q x role hq => relates_withRecord hw h hf hn hc hd hq, fun q x hq => ownerPlays_withRecord hw h hf hn hc hd hq,
    fun q x hq => valuePlays_withRecord hw h hf hn hc hd hq, ?_⟩
  · intro a q hq
    rw [hw.byOwned] at hq
    split at hq
    · rename_i ha
      rw [← Option.some.inj hq, ha]
    · exact h.byOwned a q hq
  · intro q hq
    rcases (hhas q).1 hq with rfl | hq
    · exact ⟨_, backs_withRecord hw hc hf hk hplain⟩
    · obtain ⟨e, hb⟩ := h.backed q hq
      exact backs_other_withRecord hw hc h hf hd hplain hq hb
  · intro x e he hi
    rcases defined_withRecord hw hd he with ⟨hx, -⟩ | ⟨e', he', hl, -⟩
    · exact ⟨r, (hhas r).2 (Or.inl rfl), hx⟩
    · obtain ⟨q, hq, hx⟩ := h.reserved x e' he' (by rw [TypeDef.isImplicit, hl]; exact hi)
      exact ⟨q, (hhas q).2 (Or.inr hq), hx⟩
  · intro x e a he ha
    rcases defined_withRecord hw hd he with ⟨-, hi⟩ | ⟨e', he', hl, hfor⟩
    · exact hi
    · rw [TypeDef.isImplicit, ← hl]
      exact h.marked x e' a he' (hfor.trans ha)
  · intro x e he hi
    rcases defined_withRecord hw hd he with ⟨-, hi'⟩ | ⟨e', he', hl, -⟩
    · exact absurd hi' hi
    · rw [← hl]
      exact h.unscoped x e' he' (by rw [TypeDef.isImplicit, hl]; exact hi)
  · intro x a hx
    obtain ⟨q, hq, ho⟩ := h.owned x a ((declaresOwns_withRecord hw hf hd x a).1 hx)
    exact ⟨q, (hhas q).2 (Or.inr hq), ho⟩

/-- **A first declaration.** The types that record the ownership of an attribute type can always be made. -/
theorem insertImplicit_spec (hc : s.Coherent) (h : s.Recorded) (hf : s.FreshFor r) (hd : s.get? r.owned = some d)
    (hk : d.kind = .attribute) (hmeta : ¬ s.isMeta r.owned) (hplain : ¬ d.isImplicit)
    (hn : s.implicitForOwned? r.owned = none) :
    ∃ s', Transaction.insertImplicit s r d.label = .ok s' ∧ s.WithRecord s' r d ∧ s'.Coherent ∧ s'.Recorded := by
  obtain ⟨s', hs'⟩ := insertImplicit_total hc h hf hd hplain hn
  obtain ⟨hw, hc'⟩ := insertImplicit_withRecord hc hf hd hs' hmeta
  exact ⟨s', hs', hw, hc', withRecord_recorded hw hc h hf hd hk hplain hn⟩

end Schema

end ConceptGraph
