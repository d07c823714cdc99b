/-
Renaming an attribute type, whose record is renamed along with it.

- `relabelAll_total`: no step of it is refused once the rules have been asked.
- `SameButLabels`: all that comes of it. `relabelAll_spec`: the schema stays coherent and its records stay records.
-/
import ConceptGraph.Proofs.Schema.OwnershipRecords
import ConceptGraph.Session.SchemaEdits

namespace ConceptGraph

open Std

namespace Schema

variable {s s' : Schema} {t a p x : TypeId} {d d' : TypeDef} {r r' : ImplicitOwnership}

/-! ## No step is refused -/

/-- a label that was free stays free when another one is given away -/
theorem free_after_relabel {l k : Label} (hs : s.Indexed) (hr : s.relabel t l = .ok s') (hkl : k ≠ l)
    (hfree : ∀ holder, s.idOf? k = some holder → holder = x) (holder : TypeId) (h : s'.idOf? k = some holder) :
    holder = x := by
  obtain ⟨e, he, hl⟩ := ((relabel_indexed hr hs).label k holder).1 h
  rw [get?_relabel hr] at he
  split at he
  · obtain ⟨d, -, rfl⟩ := Option.map_eq_some_iff.1 he
    exact absurd hl.symm hkl
  · exact hfree holder ((hs.label k holder).2 ⟨e, he, hl⟩)

theorem isReserved_ne {l k : Label} (hl : ¬ Label.isReserved l) (hk : Label.isReserved k) : k ≠ l := fun he => hl (he ▸ hk)

theorem relabelAll_of_none {l : Label} (hn : s.implicitForOwned? t = none) :
    Transaction.relabelAll s t l = .ok s' ↔ s.relabel t l = .ok s' := by
  simp only [Transaction.relabelAll, bind_eq_ok]
  constructor
  · rintro ⟨s₁, h₁, h⟩
    rw [Schema.implicitForOwned?, (tables_relabel h₁).2.1, ← Schema.implicitForOwned?, hn] at h
    rw [h₁, pure_eq_ok.1 h]
  · intro h₁
    refine ⟨s', h₁, ?_⟩
    rw [Schema.implicitForOwned?, (tables_relabel h₁).2.1, ← Schema.implicitForOwned?, hn]
    rfl

theorem relabelAll_of_some {l : Label} (hr : s.implicitForOwned? t = some r) :
    Transaction.relabelAll s t l = .ok s' ↔ ∃ s₁ s₂ s₃, s.relabel t l = .ok s₁ ∧
      s₁.relabel r.relation (Label.ownershipRelation l) = .ok s₂ ∧ s₂.relabel r.ownerRole (Label.ownerRole l) = .ok s₃ ∧
      s₃.relabel r.valueRole (Label.valueRole l) = .ok s' := by
  simp only [Transaction.relabelAll, bind_eq_ok]
  constructor
  · rintro ⟨s₁, h₁, h⟩
    rw [Schema.implicitForOwned?, (tables_relabel h₁).2.1, ← Schema.implicitForOwned?, hr] at h
    simp only [bind_eq_ok] at h
    obtain ⟨s₂, h₂, s₃, h₃, h₄⟩ := h
    exact ⟨s₁, s₂, s₃, h₁, h₂, h₃, h₄⟩
  · rintro ⟨s₁, s₂, s₃, h₁, h₂, h₃, h₄⟩
    refine ⟨s₁, h₁, ?_⟩
    rw [Schema.implicitForOwned?, (tables_relabel h₁).2.1, ← Schema.implicitForOwned?, hr]
    simp only [bind_eq_ok]
    exact ⟨s₂, h₂, s₃, h₃, h₄⟩

theorem defined_after_relabel {l : Label} {y : TypeId} {e : TypeDef} (hr : s.relabel t l = .ok s')
    (he : s.get? y = some e) : ∃ e', s'.get? y = some e' := by
  rw [get?_relabel hr]
  split
  · rename_i hy
    rw [← hy, he]
    exact ⟨_, rfl⟩
  · exact ⟨e, he⟩

/-- the new labels are taken if they are free, or held by the elements that get them -/
theorem relabelAll_total {l : Label} (hs : s.Indexed) (h : s.Recorded) (hd : s.get? t = some d)
    (hl : ¬ Label.isReserved l) (hun : Label.scopeMark ∉ l.toList)
    (hfree : ∀ holder, s.idOf? l = some holder → holder = t)
    (hrec : ∀ r, s.implicitForOwned? t = some r →
      (∀ holder, s.idOf? (Label.ownershipRelation l) = some holder → holder = r.relation) ∧
      (∀ holder, s.idOf? (Label.ownerRole l) = some holder → holder = r.ownerRole) ∧
      (∀ holder, s.idOf? (Label.valueRole l) = some holder → holder = r.valueRole)) :
    ∃ s', Transaction.relabelAll s t l = .ok s' := by
  obtain ⟨s₁, h₁⟩ := relabel_total hd hfree
  cases hr : s.implicitForOwned? t with
  | none => exact ⟨s₁, (relabelAll_of_none hr).2 h₁⟩
  | some r =>
    obtain ⟨hrel, hown, hval⟩ := hrec r hr
    obtain ⟨e, hb⟩ := h.backed r (h.implicitForOwned?.1 hr).1
    have hs₁ := relabel_indexed h₁ hs
    have hrel₁ := free_after_relabel hs h₁ (isReserved_ne hl (Label.isReserved_ownershipRelation l)) hrel
    have hown₁ := free_after_relabel hs h₁ (isReserved_ne hl (Label.isReserved_ownerRole l)) hown
    have hval₁ := free_after_relabel hs h₁ (isReserved_ne hl (Label.isReserved_valueRole l)) hval
    obtain ⟨e₁, he₁⟩ := defined_after_relabel h₁ hb.relation
    obtain ⟨s₂, h₂⟩ := relabel_total he₁ hrel₁
    have hs₂ := relabel_indexed h₂ hs₁
    have hown₂ := free_after_relabel hs₁ h₂ (Label.ownershipRelation_ne_ownerRole hun l).symm hown₁
    have hval₂ := free_after_relabel hs₁ h₂ (Label.ownershipRelation_ne_valueRole hun l).symm hval₁
    obtain ⟨e₂, he₂⟩ := defined_after_relabel h₁ hb.ownerRole
    obtain ⟨e₂, he₂⟩ := defined_after_relabel h₂ he₂
    obtain ⟨s₃, h₃⟩ := relabel_total he₂ hown₂
    have hval₃ := free_after_relabel hs₂ h₃ (Label.ownerRole_ne_valueRole l l).symm hval₂
    obtain ⟨e₃, he₃⟩ := defined_after_relabel h₁ hb.valueRole
    obtain ⟨e₃, he₃⟩ := defined_after_relabel h₂ he₃
    obtain ⟨e₃, he₃⟩ := defined_after_relabel h₃ he₃
    obtain ⟨s₄, h₄⟩ := relabel_total he₃ hval₃
    exact ⟨s₄, (relabelAll_of_some hr).2 ⟨s₁, s₂, s₃, h₁, h₂, h₃, h₄⟩⟩

/-! ## What changes -/

/-- two schemas that differ at most in labels, and not in which labels are reserved -/
structure SameButLabels (s s' : Schema) : Prop where
  defs : ∀ x e, s'.get? x = some e → ∃ e', s.get? x = some e' ∧ e = { e' with label := e.label } ∧
    (e.isImplicit ↔ e'.isImplicit)
  defined : ∀ x e, s.get? x = some e → ∃ e', s'.get? x = some e'
  parents : ∀ x, s'.directSupertype? x = s.directSupertype? x
  metas : s'.metaTypes = s.metaTypes
  byOwned : s'.implicitByOwned = s.implicitByOwned
  byRelation : s'.implicitByRelation = s.implicitByRelation

theorem relabel_sameButLabels {l : Label} (hr : s.relabel t l = .ok s') (hd : s.get? t = some d)
    (hl : Label.isReserved l = Label.isReserved d.label) : s.SameButLabels s' := by
  obtain ⟨hm, ho, hb⟩ := tables_relabel hr
  refine ⟨?_, fun x e he => defined_after_relabel hr he, directSupertype?_relabel hr, hm, ho, hb⟩
  intro x e he
  rw [get?_relabel hr] at he
  split at he
  · rename_i hx
    rw [hd, Option.map_some] at he
    obtain rfl := Option.some.inj he
    exact ⟨d, hx ▸ hd, rfl, by rw [TypeDef.isImplicit, TypeDef.isImplicit, hl]⟩
  · exact ⟨e, he, rfl, Iff.rfl⟩

theorem SameButLabels.get? (h : s.SameButLabels s') {e : TypeDef} (he : s.get? x = some e) :
    ∃ e', s'.get? x = some e' ∧ e' = { e with label := e'.label } ∧ (e'.isImplicit ↔ e.isImplicit) := by
  obtain ⟨e', he'⟩ := h.defined x e he
  obtain ⟨f, hf, heq, hi⟩ := h.defs x e' he'
  obtain rfl := Option.some.inj (he.symm.trans hf)
  exact ⟨e', he', heq, hi⟩

/-- what a definition says beside its label is said as before -/
theorem SameButLabels.stated (h : s.SameButLabels s') {f : TypeDef → Prop}
    (hf : ∀ (e : TypeDef) (l : Label), f { e with label := l } ↔ f e) (x : TypeId) :
    (∃ e, s'.get? x = some e ∧ f e) ↔ ∃ e, s.get? x = some e ∧ f e := by
  constructor
  · rintro ⟨e, he, hr⟩
    obtain ⟨e', he', heq, -⟩ := h.defs x e he
    rw [heq, hf] at hr
    exact ⟨e', he', hr⟩
  · rintro ⟨e, he, hr⟩
    obtain ⟨e', he', heq, -⟩ := h.get? he
    exact ⟨e', he', by rwa [heq, hf]⟩

theorem SameButLabels.declaresPlays (h : s.SameButLabels s') (x role : TypeId) :
    s'.DeclaresPlays x role ↔ s.DeclaresPlays x role :=
  h.stated (f := fun e => role ∈ e.plays) (fun _ _ => Iff.rfl) x

theorem SameButLabels.declaresRelates (h : s.SameButLabels s') (x role : TypeId) :
    s'.DeclaresRelates x role ↔ s.DeclaresRelates x role :=
  h.stated (f := fun e => e.relatesRole role) (fun _ _ => Iff.rfl) x

theorem SameButLabels.declaresOwns (h : s.SameButLabels s') (x a : TypeId) :
    s'.DeclaresOwns x a ↔ s.DeclaresOwns x a :=
  h.stated (f := fun e => a ∈ e.owns) (fun _ _ => Iff.rfl) x

/-- other labels have to be in order, and the elements of records have to have theirs -/
theorem SameButLabels.recorded (h : s.SameButLabels s') (hrec : s.Recorded)
    (hbacked : ∀ r d, s.HasRecord r → s.Backs r d → ∃ d', s'.Backs r d')
    (hlabel : ∀ x e, s'.get? x = some e → ¬ e.isImplicit → Label.scopeMark ∉ e.label.toList) : s'.Recorded := by
  refine hrec.edited h.byOwned h.byRelation hbacked ?_ (fun r x role _ _ => (h.declaresRelates x role).1) ?_
    (fun r x _ => h.declaresPlays x _) (fun x a hx => Or.inl ((h.declaresOwns x a).1 hx))
  · intro x e he
    obtain ⟨e', he', heq, hi⟩ := h.defs x e he
    have hfor : e.implicitFor? = e'.implicitFor? := by
      rw [heq]
      rfl
    by_cases hx : e.isImplicit
    · exact Or.inr ⟨e', he', hfor.symm, Or.inl ⟨hx, hi.1 hx⟩⟩
    · refine Or.inl ⟨hx, hlabel x e he hx, ?_⟩
      rw [hfor, Option.eq_none_iff_forall_ne_some]
      exact fun a ha => hx (hi.2 (hrec.marked x e' a he' ha))
  · intro r x hr
    rw [h.declaresPlays, h.declaresOwns]
    exact hrec.ownerPlays r x hr

section RelabelAll

variable {l : Label} {s₁ s₂ s₃ : Schema} (h₁ : s.relabel t l = .ok s₁)
  (h₂ : s₁.relabel r.relation (Label.ownershipRelation l) = .ok s₂)
  (h₃ : s₂.relabel r.ownerRole (Label.ownerRole l) = .ok s₃) (h₄ : s₃.relabel r.valueRole (Label.valueRole l) = .ok s')

include h₁ h₂ h₃ h₄

/-- where the elements that an edit gives other labels end up -/
theorem get?_relabelAll (hb : s.Backs r d) (ht : r.owned = t)
    (x : TypeId) : s'.get? x = if x = r.valueRole then some (.blank (Label.valueRole l) .role)
      else if x = r.ownerRole then some (.blank (Label.ownerRole l) .role)
      else if x = r.relation then some (r.relationDef l)
      else if x = t then some { d with label := l } else s.get? x := by
  have hrt : r.relation ≠ t := ht ▸ hb.ne_owned (Or.inl rfl)
  have hot : r.ownerRole ≠ t := ht ▸ hb.ne_owned (Or.inr (Or.inl rfl))
  have hvt : r.valueRole ≠ t := ht ▸ hb.ne_owned (Or.inr (Or.inr rfl))
  have hov := hb.owner_ne_value
  have hro := hb.relation_ne_owner
  have hrv := hb.relation_ne_value
  have hval : s₃.get? r.valueRole = some (.blank (Label.valueRole d.label) .role) := by
    rw [get?_relabel h₃, if_neg hov.symm, get?_relabel h₂, if_neg hrv.symm, get?_relabel h₁, if_neg hvt, hb.valueRole]
  have hown : s₂.get? r.ownerRole = some (.blank (Label.ownerRole d.label) .role) := by
    rw [get?_relabel h₂, if_neg hro.symm, get?_relabel h₁, if_neg hot, hb.ownerRole]
  have hrel : s₁.get? r.relation = some (r.relationDef d.label) := by
    rw [get?_relabel h₁, if_neg hrt, hb.relation]
  have howned : s.get? t = some d := ht ▸ hb.owned
  rw [get?_relabel h₄, hval, get?_relabel h₃, hown, get?_relabel h₂, hrel, get?_relabel h₁, howned]
  rfl

theorem tables_relabelAll : s'.metaTypes = s.metaTypes ∧ s'.implicitByOwned = s.implicitByOwned ∧
    s'.implicitByRelation = s.implicitByRelation ∧ ∀ x, s'.directSupertype? x = s.directSupertype? x := by
  obtain ⟨hm₁, ho₁, hb₁⟩ := tables_relabel h₁
  obtain ⟨hm₂, ho₂, hb₂⟩ := tables_relabel h₂
  obtain ⟨hm₃, ho₃, hb₃⟩ := tables_relabel h₃
  obtain ⟨hm₄, ho₄, hb₄⟩ := tables_relabel h₄
  refine ⟨by rw [hm₄, hm₃, hm₂, hm₁], by rw [ho₄, ho₃, ho₂, ho₁], by rw [hb₄, hb₃, hb₂, hb₁], fun x => ?_⟩
  rw [directSupertype?_relabel h₄, directSupertype?_relabel h₃, directSupertype?_relabel h₂,
    directSupertype?_relabel h₁]

theorem sameButLabels_relabelAll (hb : s.Backs r d) (ht : r.owned = t) (hl : ¬ Label.isReserved l) :
    s.SameButLabels s' := by
  have hget := get?_relabelAll h₁ h₂ h₃ h₄ hb ht
  obtain ⟨hm, ho, hr, hp⟩ := tables_relabelAll h₁ h₂ h₃ h₄
  refine ⟨?_, ?_, hp, hm, ho, hr⟩
  · intro x e he
    rw [hget] at he
    split_ifs at he with hxv hxo hxr hxt
    · refine ⟨_, by rw [hxv]; exact hb.valueRole, by rw [← Option.some.inj he]; rfl, ?_⟩
      rw [← Option.some.inj he]
      exact iff_of_true (Label.isReserved_valueRole _) (Label.isReserved_valueRole _)
    · refine ⟨_, by rw [hxo]; exact hb.ownerRole, by rw [← Option.some.inj he]; rfl, ?_⟩
      rw [← Option.some.inj he]
      exact iff_of_true (Label.isReserved_ownerRole _) (Label.isReserved_ownerRole _)
    · refine ⟨_, by rw [hxr]; exact hb.relation, by rw [← Option.some.inj he]; rfl, ?_⟩
      rw [← Option.some.inj he]
      exact iff_of_true (Label.isReserved_ownershipRelation _) (Label.isReserved_ownershipRelation _)
    · refine ⟨d, by rw [hxt, ← ht]; exact hb.owned, by rw [← Option.some.inj he], ?_⟩
      rw [← Option.some.inj he]
      exact iff_of_false hl hb.plain
    · exact ⟨e, he, rfl, Iff.rfl⟩
  · intro x e he
    rw [hget]
    split_ifs
    · exact ⟨_, rfl⟩
    · exact ⟨_, rfl⟩
    · exact ⟨_, rfl⟩
    · exact ⟨_, rfl⟩
    · exact ⟨e, he⟩

theorem coherent_relabelAll (hc : s.Coherent) (h : s.Recorded) (hr : s.HasRecord r) (ht : ¬ s.isMeta t) : s'.Coherent := by
  have hnm : ∀ {x}, r.Made x → ¬ s.isMeta x := fun hx => h.made_not_meta hc hr hx
  have hm₁ := (tables_relabel h₁).1
  have hm₂ := (tables_relabel h₂).1.trans hm₁
  have hm₃ := (tables_relabel h₃).1.trans hm₂
  have hc₁ := relabel_coherent hc h₁ ht
  have hc₂ := relabel_coherent hc₁ h₂ fun hm => hnm (Or.inl rfl) ((isMeta_congr hm₁).1 hm)
  have hc₃ := relabel_coherent hc₂ h₃ fun hm => hnm (Or.inr (Or.inl rfl)) ((isMeta_congr hm₂).1 hm)
  exact relabel_coherent hc₃ h₄ fun hm => hnm (Or.inr (Or.inr rfl)) ((isMeta_congr hm₃).1 hm)

/-- the record of the renamed attribute type -/
theorem backs_relabelAll (hb : s.Backs r d) (ht : r.owned = t) (hl : ¬ Label.isReserved l) :
    s'.Backs r { d with label := l } := by
  have hget := get?_relabelAll h₁ h₂ h₃ h₄ hb ht
  obtain ⟨hm, -, -, hp⟩ := tables_relabelAll h₁ h₂ h₃ h₄
  refine ⟨?_, hb.kind, hl, ?_, ?_, ?_, ?_, ?_, ?_, ?_⟩
  · rw [hget, if_neg (hb.ne_owned (Or.inr (Or.inr rfl))).symm, if_neg (hb.ne_owned (Or.inr (Or.inl rfl))).symm,
      if_neg (hb.ne_owned (Or.inl rfl)).symm, if_pos ht]
  · rw [hget, if_neg hb.relation_ne_value, if_neg hb.relation_ne_owner, if_pos rfl]
  · rw [hget, if_neg hb.owner_ne_value, if_pos rfl]
  · rw [hget, if_pos rfl]
  · rw [hp, hm, hb.relationParent]
  · rw [hp, hm, hb.ownerParent]
  · rw [hp, hm, hb.valueParent]
  · intro x y hy
    rw [hp]
    exact hb.leaf x y hy

/-- the records of other attribute types -/
theorem backs_other_relabelAll (hc : s.Coherent) (h : s.Recorded) (hr : s.HasRecord r) (hb : s.Backs r d)
    (ht : r.owned = t) (hr' : s.HasRecord r') (hne : r' ≠ r) {e : TypeDef} (hb' : s.Backs r' e) : s'.Backs r' e := by
  have hget := get?_relabelAll h₁ h₂ h₃ h₄ hb ht
  obtain ⟨hm, -, -, hp⟩ := tables_relabelAll h₁ h₂ h₃ h₄
  have hkeep : ∀ x, ¬ r.Made x → x ≠ t → s'.get? x = s.get? x := by
    intro x hx hxt
    rw [hget, if_neg fun he => hx (Or.inr (Or.inr he)), if_neg fun he => hx (Or.inr (Or.inl he)),
      if_neg fun he => hx (Or.inl he), if_neg hxt]
  have howned : r'.owned ≠ t := by
    intro he
    rw [HasRecord, he, ← ht, hr] at hr'
    exact hne (Option.some.inj hr').symm
  have hmade : ¬ r.Made r'.owned := fun hx => hb'.plain (h.implicit_of_made hr hx hb'.owned)
  refine hb'.keep hm ?_ ((hkeep _ hmade howned).trans hb'.owned) rfl rfl ?_
  · intro x hx
    have hxt : x ≠ t := fun he => hb.plain (h.implicit_of_made hr' hx (by rw [he, ← ht]; exact hb.owned))
    exact ⟨hkeep x (fun hx' => hne (h.made_unique hc.indexed hr' hr hx hx')) hxt, hp x⟩
  · intro x y hy
    rw [hp]
    exact hb'.leaf x y hy

end RelabelAll

/-- an attribute type without a record can be renamed without regard to records -/
theorem backs_relabel {l : Label} {e : TypeDef} (h : s.Recorded) (hd : s.get? t = some d) (hplain : ¬ d.isImplicit)
    (hn : s.implicitForOwned? t = none) (hr : s.relabel t l = .ok s') (hrr : s.HasRecord r) (hb : s.Backs r e) :
    s'.Backs r e := by
  have hget := get?_relabel hr
  have hrt : r.owned ≠ t := by
    intro he
    rw [HasRecord, he, hn] at hrr
    simp at hrr
  refine hb.keep (tables_relabel hr).1 ?_ (by rw [hget, if_neg hrt, hb.owned]) rfl rfl ?_
  · intro x hx
    rw [hget, if_neg]
    · exact ⟨rfl, directSupertype?_relabel hr x⟩
    · rintro rfl
      exact hplain (h.implicit_of_made hrr hx hd)
  · intro x y hy
    rw [directSupertype?_relabel hr]
    exact hb.leaf x y hy

/-- **Renaming.** Nothing but labels changes, and records keep the labels that go with their attribute type. -/
theorem relabelAll_spec {l : Label} (hc : s.Coherent) (h : s.Recorded) (hd : s.get? t = some d) (ht : ¬ s.isMeta t)
    (hplain : ¬ d.isImplicit) (hl : ¬ Label.isReserved l) (hun : Label.scopeMark ∉ l.toList)
    (hr : Transaction.relabelAll s t l = .ok s') : s.SameButLabels s' ∧ s'.Coherent ∧ s'.Recorded := by
  cases hrec : s.implicitForOwned? t with
  | none =>
    have h₁ := (relabelAll_of_none hrec).1 hr
    have hsame := relabel_sameButLabels h₁ hd (by rw [Bool.eq_iff_iff]; exact iff_of_false hl hplain)
    refine ⟨hsame, relabel_coherent hc h₁ ht, hsame.recorded h ?_ ?_⟩
    · exact fun r e hrr hb => ⟨e, backs_relabel h hd hplain hrec h₁ hrr hb⟩
    · intro x e he hx
      rw [get?_relabel h₁, hd] at he
      split at he
      · obtain rfl := Option.some.inj he
        exact hun
      · exact h.unscoped x e he hx
  | some r =>
    obtain ⟨s₁, s₂, s₃, h₁, h₂, h₃, h₄⟩ := (relabelAll_of_some hrec).1 hr
    obtain ⟨hrr, hro⟩ := h.implicitForOwned?.1 hrec
    obtain ⟨e, hb⟩ := h.backed r hrr
    obtain rfl := Option.some.inj (hd.symm.trans (hro ▸ hb.owned))
    have hsame := sameButLabels_relabelAll h₁ h₂ h₃ h₄ hb hro hl
    refine ⟨hsame, coherent_relabelAll h₁ h₂ h₃ h₄ hc h hrr ht, hsame.recorded h ?_ ?_⟩
    · intro r' e hr' hb'
      by_cases hne : r' = r
      · exact ⟨_, hne ▸ backs_relabelAll h₁ h₂ h₃ h₄ hb hro hl⟩
      · exact ⟨e, backs_other_relabelAll h₁ h₂ h₃ h₄ hc h hrr hb hro hr' hne hb'⟩
    · intro x e he hx
      rw [get?_relabelAll h₁ h₂ h₃ h₄ hb hro] at he
      split_ifs at he
      · exact absurd (Option.some.inj he ▸ Label.isReserved_valueRole l) hx
      · exact absurd (Option.some.inj he ▸ Label.isReserved_ownerRole l) hx
      · exact absurd (Option.some.inj he ▸ Label.isReserved_ownershipRelation l) hx
      · obtain rfl := Option.some.inj he
        exact hun
      · exact h.unscoped x e he hx

end Schema

end ConceptGraph
