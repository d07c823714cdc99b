/-
Renaming. Up to four labels move when an element is renamed: its own, and those of the types that record its ownership.
They move one after the other in one index, and none of them is ever in the way of another one.

- `Schema.labelsFor`: the labels that go with an element under some name of it, and the elements that hold them.
  Different names have no such label in common (`labelsFor_disjoint`), and what is made for a name is in use only where
  the name is (`holder_of_madeFor`).
- `Schema.Relabels`: what renaming does to the definitions. `Schema.Renamed`: what labels are found afterwards.
- `Relabels.eq_of_back`: a renaming and the one back leave the schema as it was.
- `Session.renamed_iff_free`: so an element can be renamed in every transaction that a session gets to exactly if the
  name is free, and renamed back afterwards.
-/
import ConceptGraph.Proofs.Transaction.Alterations
import ConceptGraph.Proofs.Types.UserLabels

namespace ConceptGraph

open Std

namespace Schema

variable {s s' s'' : Schema} {a b x : TypeId} {d e : TypeDef} {k l m : Label} {r : ImplicitOwnership}

/-! ## Labels that go together -/

/-- the labels that go with the element if it is called `l`, each with its holder -/
def labelsFor (s : Schema) (a : TypeId) (l : Label) : List (Label × TypeId) :=
  (l, a) :: match s.implicitForOwned? a with
    | some r =>
      [(Label.ownershipRelation l, r.relation), (Label.ownerRole l, r.ownerRole), (Label.valueRole l, r.valueRole)]
    | none => []

theorem labelsFor_of_none (hn : s.implicitForOwned? a = none) : s.labelsFor a l = [(l, a)] := by
  rw [labelsFor, hn]

theorem labelsFor_of_some (hr : s.implicitForOwned? a = some r) : s.labelsFor a l =
    [(l, a), (Label.ownershipRelation l, r.relation), (Label.ownerRole l, r.ownerRole),
      (Label.valueRole l, r.valueRole)] := by
  rw [labelsFor, hr]

theorem labelsFor_congr (h : s'.implicitByOwned = s.implicitByOwned) (a : TypeId) (l : Label) :
    s'.labelsFor a l = s.labelsFor a l := by
  rw [labelsFor, labelsFor, Schema.implicitForOwned?, Schema.implicitForOwned?, h]

/-- the element itself holds the name, and what was made for it holds what is made for the name -/
theorem cases_labelsFor (h : (m, x) ∈ s.labelsFor a l) : (m = l ∧ x = a) ∨ (Label.MadeFor l m ∧
    ∃ r, s.implicitForOwned? a = some r ∧ r.Made x) := by
  cases hr : s.implicitForOwned? a with
  | none =>
    rw [labelsFor_of_none hr] at h
    exact Or.inl (by simpa using h)
  | some r =>
    simp only [labelsFor_of_some hr, List.mem_cons, List.not_mem_nil, or_false, Prod.mk.injEq] at h
    rcases h with h | ⟨rfl, rfl⟩ | ⟨rfl, rfl⟩ | ⟨rfl, rfl⟩
    · exact Or.inl h
    · exact Or.inr ⟨Or.inl rfl, r, rfl, Or.inl rfl⟩
    · exact Or.inr ⟨Or.inr (Or.inl rfl), r, rfl, Or.inr (Or.inl rfl)⟩
    · exact Or.inr ⟨Or.inr (Or.inr rfl), r, rfl, Or.inr (Or.inr rfl)⟩

/-- whatever the element is called, the same elements have labels that go with it -/
theorem holders_labelsFor (h : (m, x) ∈ s.labelsFor a k) (l : Label) : ∃ m', (m', x) ∈ s.labelsFor a l := by
  cases hr : s.implicitForOwned? a with
  | none =>
    rw [labelsFor_of_none hr] at h ⊢
    simp only [List.mem_singleton, Prod.mk.injEq] at h ⊢
    exact ⟨l, rfl, h.2⟩
  | some r =>
    simp only [labelsFor_of_some hr, List.mem_cons, List.not_mem_nil, or_false, Prod.mk.injEq] at h ⊢
    rcases h with ⟨-, rfl⟩ | ⟨-, rfl⟩ | ⟨-, rfl⟩ | ⟨-, rfl⟩
    · exact ⟨l, Or.inl ⟨rfl, rfl⟩⟩
    · exact ⟨_, Or.inr (Or.inl ⟨rfl, rfl⟩)⟩
    · exact ⟨_, Or.inr (Or.inr (Or.inl ⟨rfl, rfl⟩))⟩
    · exact ⟨_, Or.inr (Or.inr (Or.inr ⟨rfl, rfl⟩))⟩

/-- **Two names** of users have no label in common that goes with them. -/
theorem labelsFor_disjoint {y : TypeId} (hkl : k ≠ l) (hk : ¬ Label.isReserved k) (hku : Label.scopeMark ∉ k.toList)
    (hl : ¬ Label.isReserved l) (hlu : Label.scopeMark ∉ l.toList) (h : (m, x) ∈ s.labelsFor a k) :
    (m, y) ∉ s'.labelsFor b l := by
  intro h'
  rcases cases_labelsFor h with ⟨rfl, -⟩ | ⟨hm, -⟩ <;> rcases cases_labelsFor h' with ⟨rfl, -⟩ | ⟨hm', -⟩
  · exact hkl rfl
  · exact hk hm'.isReserved
  · exact hl hm.isReserved
  · exact hkl (hm.unique hku hlu hm')

/-- the elements are called so -/
theorem Recorded.label_of_mem (h : s.Recorded) (hd : s.get? a = some d) (hm : (m, x) ∈ s.labelsFor a d.label) :
    ∃ e, s.get? x = some e ∧ e.label = m := by
  cases hr : s.implicitForOwned? a with
  | none =>
    simp only [labelsFor_of_none hr, List.mem_singleton, Prod.mk.injEq] at hm
    obtain ⟨rfl, rfl⟩ := hm
    exact ⟨d, hd, rfl⟩
  | some r =>
    obtain ⟨hrec, rfl⟩ := h.implicitForOwned?.1 hr
    obtain ⟨d', hb⟩ := h.backed r hrec
    obtain rfl := Option.some.inj (hd.symm.trans hb.owned)
    simp only [labelsFor_of_some hr, List.mem_cons, List.not_mem_nil, or_false, Prod.mk.injEq] at hm
    rcases hm with ⟨rfl, rfl⟩ | ⟨rfl, rfl⟩ | ⟨rfl, rfl⟩ | ⟨rfl, rfl⟩
    · exact ⟨d, hd, rfl⟩
    · exact ⟨_, hb.relation, rfl⟩
    · exact ⟨_, hb.ownerRole, rfl⟩
    · exact ⟨_, hb.valueRole, rfl⟩

theorem Recorded.idOf?_of_mem (h : s.Recorded) (hs : s.Indexed) (hd : s.get? a = some d)
    (hm : (m, x) ∈ s.labelsFor a d.label) : s.idOf? m = some x := (hs.label m x).2 (h.label_of_mem hd hm)

/-- **What is made** for a name is in use only where the name is, by what was made for its holder. -/
theorem Recorded.holder_of_madeFor (h : s.Recorded) (hs : s.Indexed) (hun : Label.scopeMark ∉ l.toList)
    (hm : Label.MadeFor l m) (hx : s.idOf? m = some x) :
    ∃ b r, s.idOf? l = some b ∧ s.implicitForOwned? b = some r ∧ r.Made x := by
  obtain ⟨e, he, rfl⟩ := (hs.label m x).1 hx
  obtain ⟨r, hr, hmade⟩ := h.reserved x e he hm.isReserved
  obtain ⟨d, hb⟩ := h.backed r hr
  obtain rfl := hm.unique hun (h.unscoped _ _ hb.owned hb.plain) (hb.made_label hmade he)
  exact ⟨r.owned, r, (hs.label _ _).2 ⟨d, hb.owned, rfl⟩, hr, hmade⟩

/-- if the name is free, or held by the element already, then so are the labels that go with it -/
theorem Recorded.free_for (h : s.Recorded) (hs : s.Indexed) (hun : Label.scopeMark ∉ l.toList)
    (hfree : ∀ y, s.idOf? l = some y → y = a) (hm : (m, x) ∈ s.labelsFor a l) {y : TypeId} (hy : s.idOf? m = some y) :
    y = x := by
  rcases cases_labelsFor hm with ⟨rfl, rfl⟩ | ⟨hmade, -⟩
  · exact hfree y hy
  · obtain ⟨b, r, hb, -⟩ := h.holder_of_madeFor hs hun hmade hy
    obtain rfl := hfree b hb
    obtain ⟨d, hd, rfl⟩ := (hs.label l b).1 hb
    exact Option.some.inj (hy.symm.trans (h.idOf?_of_mem hs hd hm))

/-! ## What renaming does -/

/-- the second schema is the first one with the element called `l`, and all that goes with it -/
structure Relabels (s s' : Schema) (a : TypeId) (l : Label) : Prop where
  given : ∀ m x, (m, x) ∈ s.labelsFor a l → ∃ e, s.get? x = some e ∧ s'.get? x = some { e with label := m }
  other : ∀ x, (∀ m, (m, x) ∉ s.labelsFor a l) → s'.get? x = s.get? x
  things : s'.things = s.things
  roles : s'.roles = s.roles
  metas : s'.metaTypes = s.metaTypes
  byOwned : s'.implicitByOwned = s.implicitByOwned
  byRelation : s'.implicitByRelation = s.implicitByRelation

theorem forests_relabel (hr : s.relabel a l = .ok s') : s'.things = s.things ∧ s'.roles = s.roles := by
  obtain ⟨-, d, hd, rfl⟩ := relabel_eq_ok.1 hr
  exact ⟨rfl, rfl⟩

theorem relabelAll_relabels (h : s.Recorded) (hd : s.get? a = some d) (hr : Transaction.relabelAll s a l = .ok s') :
    s.Relabels s' a l := by
  cases hrec : s.implicitForOwned? a with
  | none =>
    have h₁ := (relabelAll_of_none hrec).1 hr
    obtain ⟨hm, ho, hb⟩ := tables_relabel h₁
    obtain ⟨hthings, hroles⟩ := forests_relabel h₁
    refine ⟨fun m x hmem => ?_, fun x hno => ?_, hthings, hroles, hm, ho, hb⟩
    · simp only [labelsFor_of_none hrec, List.mem_singleton, Prod.mk.injEq] at hmem
      obtain ⟨rfl, rfl⟩ := hmem
      exact ⟨d, hd, by rw [get?_relabel h₁, if_pos rfl, hd, Option.map_some]⟩
    · rw [get?_relabel h₁, if_neg]
      rintro rfl
      exact hno l List.mem_cons_self
  | some r =>
    obtain ⟨s₁, s₂, s₃, h₁, h₂, h₃, h₄⟩ := (relabelAll_of_some hrec).1 hr
    obtain ⟨hrr, ho⟩ := h.implicitForOwned?.1 hrec
    obtain ⟨d', hb⟩ := h.backed r hrr
    obtain rfl := Option.some.inj (hd.symm.trans (ho ▸ hb.owned))
    have hget := get?_relabelAll h₁ h₂ h₃ h₄ hb ho
    obtain ⟨hm, hto, htr, -⟩ := tables_relabelAll h₁ h₂ h₃ h₄
    obtain ⟨ht₁, hr₁⟩ := forests_relabel h₁
    obtain ⟨ht₂, hr₂⟩ := forests_relabel h₂
    obtain ⟨ht₃, hr₃⟩ := forests_relabel h₃
    obtain ⟨ht₄, hr₄⟩ := forests_relabel h₄
    have hrt := ho ▸ hb.ne_owned (Or.inl rfl)
    have hot := ho ▸ hb.ne_owned (Or.inr (Or.inl rfl))
    have hvt := ho ▸ hb.ne_owned (Or.inr (Or.inr rfl))
    refine ⟨fun m x hmem => ?_, fun x hno => ?_, by rw [ht₄, ht₃, ht₂, ht₁], by rw [hr₄, hr₃, hr₂, hr₁], hm, hto, htr⟩
    · simp only [labelsFor_of_some hrec, List.mem_cons, List.not_mem_nil, or_false, Prod.mk.injEq] at hmem
      rcases hmem with ⟨rfl, rfl⟩ | ⟨rfl, rfl⟩ | ⟨rfl, rfl⟩ | ⟨rfl, rfl⟩
      · exact ⟨d, hd, by rw [hget, if_neg hvt.symm, if_neg hot.symm, if_neg hrt.symm, if_pos rfl]⟩
      · exact ⟨_, hb.relation, by rw [hget, if_neg hb.relation_ne_value, if_neg hb.relation_ne_owner, if_pos rfl]; rfl⟩
      · exact ⟨_, hb.ownerRole, by rw [hget, if_neg hb.owner_ne_value, if_pos rfl]; rfl⟩
      · exact ⟨_, hb.valueRole, by rw [hget, if_pos rfl]; rfl⟩
    · simp only [labelsFor_of_some hrec, List.mem_cons, List.not_mem_nil, or_false, Prod.mk.injEq, not_or] at hno
      rw [hget, if_neg fun he => (hno _).2.2.2 ⟨rfl, he⟩, if_neg fun he => (hno _).2.2.1 ⟨rfl, he⟩,
        if_neg fun he => (hno _).2.1 ⟨rfl, he⟩, if_neg fun he => (hno _).1 ⟨rfl, he⟩]

/-- what labels are found after the element, called `k`, has been called `l` -/
structure Renamed (s s' : Schema) (a : TypeId) (k l : Label) : Prop where
  given : ∀ m x, (m, x) ∈ s.labelsFor a l → s'.idOf? m = some x
  gone : k ≠ l → ∀ m x, (m, x) ∈ s.labelsFor a k → s'.idOf? m = none
  kept : ∀ m, (∀ x, (m, x) ∉ s.labelsFor a k) → (∀ x, (m, x) ∉ s.labelsFor a l) → s'.idOf? m = s.idOf? m

theorem Recorded.renamed_self (h : s.Recorded) (hs : s.Indexed) (hd : s.get? a = some d) :
    s.Renamed s a d.label d.label :=
  ⟨fun _ _ hm => h.idOf?_of_mem hs hd hm, fun hne => absurd rfl hne, fun _ _ _ => rfl⟩

/-- **Labels after a renaming.** The old ones are gone, the new ones are there, and all others are as before. -/
theorem Relabels.renamed (hre : s.Relabels s' a l) (h : s.Recorded) (hs : s.Indexed) (hs' : s'.Indexed)
    (hd : s.get? a = some d) (hdisjoint : d.label ≠ l → ∀ m x y, (m, x) ∈ s.labelsFor a d.label →
      (m, y) ∉ s.labelsFor a l) : s.Renamed s' a d.label l := by
  have hgiven : ∀ m x, (m, x) ∈ s.labelsFor a l → s'.idOf? m = some x := by
    intro m x hm
    obtain ⟨e, -, he⟩ := hre.given m x hm
    exact (hs'.label m x).2 ⟨_, he, rfl⟩
  refine ⟨hgiven, fun hkl m x hm => ?_, fun m hk hl => ?_⟩
  · -- whoever had the label now would have to have another one
    refine Option.eq_none_iff_forall_ne_some.2 fun y hy => ?_
    obtain ⟨e, he, rfl⟩ := (hs'.label m y).1 hy
    by_cases hheld : ∃ m', (m', y) ∈ s.labelsFor a l
    · obtain ⟨m', hm'⟩ := hheld
      obtain ⟨e', -, he'⟩ := hre.given m' y hm'
      obtain rfl := Option.some.inj (he.symm.trans he')
      exact hdisjoint hkl _ _ _ hm hm'
    · rw [hre.other y (not_exists.1 hheld)] at he
      obtain ⟨e', he', hsame⟩ := h.label_of_mem hd hm
      obtain rfl := hs.label_injective he he' hsame.symm
      exact hheld (holders_labelsFor hm l)
  · refine Option.ext fun x => (hs'.label m x).trans ((Iff.trans ?_ (hs.label m x).symm))
    by_cases hheld : ∃ m', (m', x) ∈ s.labelsFor a l
    · -- its labels, old and new, are not the one that is looked for
      obtain ⟨m', hm'⟩ := hheld
      obtain ⟨e, he, he'⟩ := hre.given m' x hm'
      obtain ⟨m'', hm''⟩ := holders_labelsFor hm' d.label
      obtain ⟨e'', he'', rfl⟩ := h.label_of_mem hd hm''
      obtain rfl := Option.some.inj (he.symm.trans he'')
      refine iff_of_false ?_ ?_
      · rintro ⟨f, hf, rfl⟩
        exact hl x (Option.some.inj (he'.symm.trans hf) ▸ hm')
      · rintro ⟨f, hf, rfl⟩
        exact hk x (Option.some.inj (he.symm.trans hf) ▸ hm'')
    · rw [hre.other x (not_exists.1 hheld)]

/-- two schemas with the same definitions, forests and tables are the same, as labels are found by definitions -/
theorem eq_of_defs (hs : s.Indexed) (hs' : s'.Indexed) (hget : ∀ x, s'.get? x = s.get? x) (hthings : s'.things = s.things)
    (hroles : s'.roles = s.roles) (hm : s'.metaTypes = s.metaTypes) (ho : s'.implicitByOwned = s.implicitByOwned)
    (hr : s'.implicitByRelation = s.implicitByRelation) : s' = s := by
  have hdefs : s'.defs = s.defs := ExtTreeMap.ext_getElem? fun x => hget x
  have hlabels : s'.labels = s.labels := by
    refine ExtTreeMap.ext_getElem? fun m => Option.ext fun x => (hs'.label m x).trans ?_
    simp only [hget]
    exact (hs.label m x).symm
  cases s
  cases s'
  simp_all

/-- **There and back.** The schema is as it was before. -/
theorem Relabels.eq_of_back (hre : s.Relabels s' a l) (h : s.Recorded) (hs : s.Indexed) (hd : s.get? a = some d)
    (hback : s'.Relabels s'' a d.label) (hs'' : s''.Indexed) : s'' = s := by
  have hsame : ∀ l, s'.labelsFor a l = s.labelsFor a l := labelsFor_congr hre.byOwned a
  refine eq_of_defs hs hs'' (fun x => ?_) (hback.things.trans hre.things) (hback.roles.trans hre.roles)
    (hback.metas.trans hre.metas) (hback.byOwned.trans hre.byOwned) (hback.byRelation.trans hre.byRelation)
  by_cases hheld : ∃ m, (m, x) ∈ s.labelsFor a d.label
  · obtain ⟨m, hm⟩ := hheld
    obtain ⟨m', hm'⟩ := holders_labelsFor hm l
    obtain ⟨e, he, he'⟩ := hre.given m' x hm'
    obtain ⟨f, hf, hf'⟩ := hback.given m x (hsame _ ▸ hm)
    obtain ⟨g, hg, rfl⟩ := h.label_of_mem hd hm
    obtain rfl := Option.some.inj (he.symm.trans hg)
    rw [hf', ← Option.some.inj (he'.symm.trans hf), he]
  · have hno : ∀ k m, (m, x) ∉ s.labelsFor a k := fun k m hm => hheld (holders_labelsFor hm d.label)
    rw [hback.other x fun m => hsame _ ▸ hno _ m, hre.other x (hno l)]

end Schema

/-! ## The rule -/

namespace State

variable {s : State} {a : TypeId} {d : TypeDef} {l : Label} {limit : Nat}

/-- **The rule** for renaming asks for a proper name that no other element has; the labels that go with it are free. -/
theorem checkSetLabel_iff (hs : s.schema.Indexed) (hr : s.schema.Recorded) (he : s.Editable a d) :
    s.checkSetLabel a l limit = .ok () ↔
      Label.Proper limit l ∧ ∀ x, s.schema.idOf? l = some x → x = a := by
  simp only [checkSetLabel, bind_eq_ok, editableAny_eq_ok, checkLabel_iff, Schema.checkLabelFree_eq_ok, Option.some.injEq]
  constructor
  · rintro ⟨-, -, -, hl, -, hfree, -⟩
    exact ⟨hl, hfree⟩
  · rintro ⟨hl, hfree⟩
    refine ⟨d, he, (), hl, (), hfree, ?_⟩
    cases hrec : s.schema.implicitForOwned? a with
    | none => rfl
    | some r =>
      have hown : ∀ {m x}, (m, x) ∈ s.schema.labelsFor a l → ∀ y, s.schema.idOf? m = some y → y = x :=
        fun hm y hy => hr.free_for hs hl.unscoped hfree hm hy
      simp only [Schema.labelsFor_of_some hrec, bind_eq_ok, Schema.checkLabelFree_eq_ok, Option.some.injEq] at hown ⊢
      exact ⟨(), hown (by simp), (), hown (by simp), hown (by simp)⟩

/-- users may still edit what has been renamed -/
theorem Editable.relabelled {schema' : Schema} (he : s.Editable a d) (hre : s.schema.Relabels schema' a l)
    (hl : ¬ Label.isReserved l) : ({ s with schema := schema' } : State).Editable a { d with label := l } := by
  obtain ⟨e, hd, hd'⟩ := hre.given l a List.mem_cons_self
  obtain rfl := Option.some.inj (he.1.symm.trans hd)
  exact ⟨hd', fun hm => he.2.1 ((Schema.isMeta_congr hre.metas).1 hm), hl⟩

/-- a renaming that the rules allow goes through -/
theorem relabelAll_of_check (hs : s.schema.Indexed) (hr : s.schema.Recorded) (he : s.Editable a d)
    (hc : s.checkSetLabel a l limit = .ok ()) : ∃ schema', Transaction.relabelAll s.schema a l = .ok schema' := by
  obtain ⟨hl, hfree⟩ := (checkSetLabel_iff hs hr he).1 hc
  have hown : ∀ {m x}, (m, x) ∈ s.schema.labelsFor a l → ∀ y, s.schema.idOf? m = some y → y = x :=
    fun hm y hy => hr.free_for hs hl.unscoped hfree hm hy
  refine Schema.relabelAll_total hs hr he.1 hl.plain hl.unscoped hfree fun r hrec => ?_
  rw [Schema.labelsFor_of_some hrec] at hown
  exact ⟨hown (by simp), hown (by simp), hown (by simp)⟩

end State

namespace Transaction

open State

variable {t t' : Transaction} {a : TypeId} {d : TypeDef} {l : Label} {schema' : Schema}

theorem perform_setLabel_of_outcome (hout : outcome (setLabel a l) t = (.ok (), t')) :
    t.perform (.setLabel a l) = (.ok .done, t') := by
  rw [perform_eq]
  show outcome ((fun _ => Reply.done) <$> setLabel a l) t = _
  rw [outcome_map, hout]
  rfl

/-- an element that is called so already is left alone -/
theorem outcome_setLabel_same (hc : t.working.checkSetLabel a l t.labelLimit = .ok ())
    (hd : t.working.schema.get? a = some d) (hsame : d.label = l) : outcome (setLabel a l) t = (.ok (), t) := by
  refine Done.outcome_eq (.get (.ask hc (.ask (Schema.require_eq_ok.2 hd) ?_)))
  rw [if_neg (not_not.2 hsame)]
  exact .pure ⟨rfl, rfl⟩

theorem perform_setLabel_same (hc : t.working.checkSetLabel a l t.labelLimit = .ok ())
    (hd : t.working.schema.get? a = some d) (hsame : d.label = l) : t.perform (.setLabel a l) = (.ok .done, t) :=
  perform_setLabel_of_outcome (outcome_setLabel_same hc hd hsame)

theorem perform_setLabel (hc : t.working.checkSetLabel a l t.labelLimit = .ok ())
    (hd : t.working.schema.get? a = some d) (hnew : d.label ≠ l)
    (hr : relabelAll t.working.schema a l = .ok schema') : t.perform (.setLabel a l) =
      (.ok .done, { t.withSchema schema' with mutations := t.mutations ++ [.setLabel a l] }) := by
  refine perform_setLabel_of_outcome (Done.outcome_eq (.get (.ask hc (.ask (Schema.require_eq_ok.2 hd) ?_))))
  rw [if_pos hnew]
  exact .editSchema hr (.record_last ⟨rfl, rfl⟩)

theorem check_of_perform_setLabel {r : Reply} (hok : (t.perform (.setLabel a l)).1 = .ok r) :
    t.working.checkSetLabel a l t.labelLimit = .ok () := by
  have h : Ensures (Operation.setLabel a l).perform t fun _ _ => t.working.checkSetLabel a l t.labelLimit = .ok () :=
    .map (.get (.ask fun _ hc _ _ _ => hc))
  exact h.of_ok hok

section Checked

variable (hcoherent : t.working.schema.Coherent) (hrecorded : t.working.schema.Recorded) (he : t.working.Editable a d)

include hcoherent hrecorded he

/-- what comes of a renaming that the rules allow -/
theorem perform_setLabel_cases (hc : t.working.checkSetLabel a l t.labelLimit = .ok ()) :
    (d.label = l ∧ t.perform (.setLabel a l) = (.ok .done, t)) ∨
      ∃ schema', d.label ≠ l ∧ t.working.schema.Relabels schema' a l ∧ schema'.Coherent ∧ schema'.Recorded ∧
        t.perform (.setLabel a l) =
          (.ok .done, { t.withSchema schema' with mutations := t.mutations ++ [.setLabel a l] }) := by
  by_cases hsame : d.label = l
  · exact Or.inl ⟨hsame, perform_setLabel_same hc he.1 hsame⟩
  · obtain ⟨hl, -⟩ := (checkSetLabel_iff hcoherent.indexed hrecorded he).1 hc
    obtain ⟨schema', hr⟩ := relabelAll_of_check hcoherent.indexed hrecorded he hc
    obtain ⟨-, hcoherent', hrecorded'⟩ :=
      Schema.relabelAll_spec hcoherent hrecorded he.1 he.2.1 he.2.2 hl.plain hl.unscoped hr
    exact Or.inr ⟨schema', hsame, Schema.relabelAll_relabels hrecorded he.1 hr, hcoherent', hrecorded',
      perform_setLabel hc he.1 hsame hr⟩

theorem perform_setLabel_iff : (∃ r, (t.perform (.setLabel a l)).1 = .ok r) ↔
    Label.Proper t.labelLimit l ∧ ∀ x, t.working.schema.idOf? l = some x → x = a := by
  rw [← checkSetLabel_iff hcoherent.indexed hrecorded he]
  refine ⟨fun ⟨r, hok⟩ => check_of_perform_setLabel hok, fun hc => ⟨.done, ?_⟩⟩
  rcases perform_setLabel_cases hcoherent hrecorded he hc with ⟨-, hok⟩ | ⟨schema', -, -, -, -, hok⟩
  · rw [hok]
  · rw [hok]

/-- **The way back** is open, as the old name is free now, and leads to the schema that was there before. -/
theorem perform_setLabel_back (hre : t.working.schema.Relabels schema' a l) (hcoherent' : schema'.Coherent)
    (hrecorded' : schema'.Recorded) (hne : d.label ≠ l) (hl : Label.Proper t.labelLimit l)
    (hlabel : Label.Proper t.labelLimit d.label) (hfree : schema'.idOf? d.label = none) (ms : List Mutation) :
    ∃ t'', ({ t.withSchema schema' with mutations := ms } : Transaction).perform (.setLabel a d.label) =
      (.ok .done, t'') ∧ t''.working = t.working := by
  have he' : ({ t.withSchema schema' with mutations := ms } : Transaction).working.Editable a { d with label := l } :=
    he.relabelled hre hl.plain
  have hc := (checkSetLabel_iff hcoherent'.indexed hrecorded' he').2
    ⟨hlabel, fun x hx => absurd (hfree.symm.trans hx) (by simp)⟩
  rcases perform_setLabel_cases hcoherent' hrecorded' he' hc with ⟨heq, -⟩ | ⟨schema'', -, hback, hcoherent'', -, hok⟩
  · exact absurd heq.symm hne
  · refine ⟨_, hok, ?_⟩
    obtain rfl := hre.eq_of_back hrecorded hcoherent.indexed he.1 hback hcoherent''.indexed
    rfl

end Checked

end Transaction

namespace Session

open State Transaction

variable {config : SessionConfig} {ids : Option IdSource} {journal : Option Journal} {s : Session} {es : List Event}
  {t : Transaction} {a : TypeId} {d : TypeDef} {l : Label}

/-- **An element can be renamed** exactly if the name is free. The labels that go with it are not in use otherwise, the
labels that went with the old one are gone, and it can be renamed back, which leaves all as it was. -/
theorem renamed_iff_free (hs : start config ids journal = .ok s) (hfit : s.issued es < 2 ^ 64)
    (hw : (s.run es).writer = some t) (he : t.working.Editable a d) (hl : Label.Proper config.maxLabelLen.toNat l) :
    ((∃ r, (t.perform (.setLabel a l)).1 = .ok r) ↔
      ∀ x e, t.working.schema.get? x = some e → e.label = l → x = a) ∧
    (∀ m x, Label.MadeFor l m → t.working.schema.idOf? m = some x → ∃ b r, t.working.schema.idOf? l = some b ∧
      t.working.schema.implicitForOwned? b = some r ∧ r.Made x) ∧
    ∀ r t', t.perform (.setLabel a l) = (.ok r, t') → (d.label = l → t' = t) ∧
      t.working.schema.Renamed t'.working.schema a d.label l ∧
      ∃ t'', t'.perform (.setLabel a d.label) = (.ok .done, t'') ∧ t''.working = t.working := by
  have h := ((run_sound hs hfit (List.prefix_refl _)).writer hw).working
  have hindexed := h.coherent.indexed
  have hnamed := writer_named hs hw
  have hlabel : Label.Proper config.maxLabelLen.toNat d.label :=
    (hnamed.states.working a d he.1 he.2.1).resolve_left he.2.2
  rw [← hnamed.labelLimit] at hl hlabel
  refine ⟨?_, fun m x hm hx => h.recorded.holder_of_madeFor hindexed hl.unscoped hm hx, fun r t' hok => ?_⟩
  · rw [perform_setLabel_iff h.coherent h.recorded he, and_iff_right hl]
    simp only [hindexed.label]
    exact ⟨fun hfree x e hx hel => hfree x ⟨e, hx, hel⟩, fun hfree x ⟨e, hx, hel⟩ => hfree x e hx hel⟩
  · have hc := check_of_perform_setLabel (congrArg Prod.fst hok)
    rcases perform_setLabel_cases h.coherent h.recorded he hc with
      ⟨rfl, hsame⟩ | ⟨schema', hne, hre, hcoherent, hrecorded, hperform⟩
    · obtain ⟨-, rfl⟩ := Prod.mk.inj (hok.symm.trans hsame)
      exact ⟨fun _ => rfl, h.recorded.renamed_self hindexed he.1, t', hsame, rfl⟩
    · obtain ⟨-, rfl⟩ := Prod.mk.inj (hok.symm.trans hperform)
      have hrenamed := hre.renamed h.recorded hindexed hcoherent.indexed he.1 fun hkl m x y hm =>
        Schema.labelsFor_disjoint hkl hlabel.plain hlabel.unscoped hl.plain hl.unscoped hm
      have hgone := hrenamed.gone hne d.label a List.mem_cons_self
      exact ⟨fun heq => absurd heq hne, hrenamed,
        perform_setLabel_back h.coherent h.recorded he hre hcoherent hrecorded hne hl hlabel hgone _⟩

/-- persons have names and nicks -/
def twoNames : List Event :=
  [.begin, .perform (.putEntityType "person"), .perform (.putAttributeType "name" (some .string)),
    .perform (.has ⟨6⟩ ⟨7⟩), .perform (.putAttributeType "nick" (some .string)), .perform (.has ⟨6⟩ ⟨11⟩)]

set_option maxRecDepth 10000 in
/-- names cannot be nicks, but aliases, and then names again -/
theorem twoNames_renamed : blank.issued twoNames < 2 ^ 64 ∧ ∃ t t', (blank.run twoNames).writer = some t ∧
    t.working.schema.idOf? "nick" = some ⟨11⟩ ∧ (∀ r, (t.perform (.setLabel ⟨7⟩ "nick")).1 ≠ .ok r) ∧
    t.perform (.setLabel ⟨7⟩ "alias") = (.ok .done, t') ∧ t.working.schema.Renamed t'.working.schema ⟨7⟩ "name" "alias" ∧
    ("@has-name", ⟨8⟩) ∈ t.working.schema.labelsFor ⟨7⟩ "name" ∧
    ∃ t'', t'.perform (.setLabel ⟨7⟩ "name") = (.ok .done, t'') ∧ t''.working = t.working := by
  have hfit : blank.issued twoNames < 2 ^ 64 := by decide +kernel
  have hfound : (blank.run twoNames).writer.map (fun t => ((t.working.editableAny ⟨7⟩).toOption.map TypeDef.label,
      t.working.schema.idOf? "nick", (t.perform (.setLabel ⟨7⟩ "alias")).1.toOption,
        t.working.schema.labelsFor ⟨7⟩ "name")) =
      some (some "name", some ⟨11⟩, some .done, [("name", ⟨7⟩), ("@has-name", ⟨8⟩), ("@has-name:owner", ⟨9⟩),
        ("@has-name:value", ⟨10⟩)]) := by decide +kernel
  obtain ⟨t, hw, ht⟩ := Option.map_eq_some_iff.1 hfound
  simp only [Prod.mk.injEq, Option.map_eq_some_iff, toOption_eq_some, State.editableAny_eq_ok] at ht
  obtain ⟨⟨d, he, hlabel⟩, hnick, hok, hlabels⟩ := ht
  have halias : Label.Proper 64 "alias" := ⟨by decide, by decide, by decide, by decide⟩
  have hproper : Label.Proper 64 "nick" := ⟨by decide, by decide, by decide, by decide⟩
  obtain ⟨-, -, hdone⟩ := renamed_iff_free start_testing hfit hw he halias
  obtain ⟨-, hrenamed, hback⟩ := hdone _ _ (Prod.ext (y := (_, (t.perform (.setLabel ⟨7⟩ "alias")).2)) hok rfl)
  obtain ⟨hiff, -, -⟩ := renamed_iff_free start_testing hfit hw he hproper
  rw [hlabel] at hrenamed hback
  refine ⟨hfit, t, _, hw, hnick, fun r hr => ?_, Prod.ext hok rfl, hrenamed, by simp [hlabels], hback⟩
  have hindexed := ((run_sound start_testing hfit (List.prefix_refl _)).writer hw).working.coherent.indexed
  obtain ⟨e, hd, hel⟩ := (hindexed.label "nick" ⟨11⟩).1 hnick
  simpa using hiff.1 ⟨r, hr⟩ ⟨11⟩ e hd hel

end Session

end ConceptGraph
