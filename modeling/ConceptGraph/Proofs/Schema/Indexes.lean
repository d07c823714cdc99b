/-
Labels and forests of a schema say what its definitions say.

A schema is seen here as `get?`, the definitions, and `directSupertype?`, which is one forest for all elements although
roles have their own. Every edit is told by what it does to these two.

- `Indexed`: labels and definitions are in bijection, and each forest has exactly the elements of its side.
- `supertypes_eq`, `mem_supertypes_iff`, `mem_subtypes`: the walks up and down, by direct supertypes.
- `insert_eq_ok`, `relabel_eq_ok`, `reparent_eq_ok`, `remove_eq_ok`: when an edit is made, and what comes of it; the
  lemmas beside them say what it does to the view, and that it keeps `Indexed`.
-/
import ConceptGraph.Proofs.Hierarchy.Forest
import ConceptGraph.Proofs.Core.Outcomes

namespace ConceptGraph

open Std

/-- whether it is in the forest of roles -/
def TypeDef.isRole (d : TypeDef) : Bool := d.kind == .role

namespace Schema

/-- the forest of roles, or that of thing types -/
def forest (s : Schema) (ofRoles : Bool) : Hierarchy TypeId := if ofRoles then s.roles else s.things

/-- labels and forests list exactly what is defined -/
structure Indexed (s : Schema) : Prop where
  forests : ∀ b, (s.forest b).Forest
  node : ∀ b t, (s.forest b).contains t ↔ ∃ d, s.get? t = some d ∧ d.isRole = b
  label : ∀ l t, s.idOf? l = some t ↔ ∃ d, s.get? t = some d ∧ d.label = l

variable {s s' : Schema} {t a : TypeId} {d : TypeDef}

/-! ## Reading -/

theorem hierarchyOf_eq_forest (s : Schema) (t : TypeId) : s.hierarchyOf t = s.forest (s.roles.contains t) := rfl

theorem Indexed.role_iff (h : s.Indexed) : s.roles.contains t ↔ ∃ d, s.get? t = some d ∧ d.isRole = true := h.node true t

/-- the forest of a defined element -/
theorem Indexed.hierarchyOf_eq (h : s.Indexed) (hd : s.get? t = some d) : s.hierarchyOf t = s.forest d.isRole := by
  rw [hierarchyOf_eq_forest]
  congr 1
  have := h.role_iff (t := t)
  simp only [hd, Option.some.injEq, exists_eq_left'] at this
  exact Bool.eq_iff_iff.2 this

theorem Indexed.label_injective (h : s.Indexed) {e : TypeDef} (ht : s.get? t = some d) (ha : s.get? a = some e)
    (hl : d.label = e.label) : t = a := by
  have ht' := (h.label e.label t).2 ⟨d, ht, hl⟩
  rw [(h.label e.label a).2 ⟨e, ha, rfl⟩] at ht'
  exact (Option.some.inj ht').symm

theorem Indexed.parent?_eq_some (h : s.Indexed) {b : Bool} {p : TypeId} (hp : (s.forest b).parent? t = some p) :
    ∃ d, s.get? t = some d ∧ d.isRole = b := (h.node b t).1 (Hierarchy.contains_of_parent hp)

theorem Indexed.directSupertype?_eq_some (h : s.Indexed) {p : TypeId} :
    s.directSupertype? t = some p ↔ ∃ b, (s.forest b).parent? t = some p := by
  unfold directSupertype?
  constructor
  · intro hp
    exact ⟨_, hp⟩
  · rintro ⟨b, hp⟩
    obtain ⟨d, hd, rfl⟩ := h.parent?_eq_some hp
    rw [h.hierarchyOf_eq hd]
    exact hp

/-- an element that is put below another one in the forest of one side, and is in no other forest, has it as its direct
supertype; all others keep theirs -/
theorem Indexed.directSupertype?_placed (h : s.Indexed) (h' : s'.Indexed) {p : TypeId} (side : Bool)
    (hother : ∀ b, b ≠ side → (s.forest b).parent? t = none)
    (hparent : ∀ b x, (s'.forest b).parent? x = if x = t ∧ b = side then some p else (s.forest b).parent? x) (x : TypeId) :
    s'.directSupertype? x = if x = t then some p else s.directSupertype? x := by
  refine Option.ext fun q => h'.directSupertype?_eq_some.trans ?_
  simp only [hparent]
  by_cases hx : x = t
  · subst hx
    rw [if_pos rfl]
    constructor
    · rintro ⟨b, hb⟩
      split at hb
      · exact hb
      · rename_i hside
        simp [hother b fun he => hside ⟨rfl, he⟩] at hb
    · exact fun hq => ⟨side, by rw [if_pos ⟨rfl, rfl⟩]; exact hq⟩
  · simp only [hx, false_and, if_false]
    exact h.directSupertype?_eq_some.symm

/-- a direct supertype is an element of the same side -/
theorem Indexed.defined_of_directSupertype? (h : s.Indexed) {p : TypeId} (hp : s.directSupertype? t = some p) :
    ∃ d e, s.get? t = some d ∧ s.get? p = some e ∧ e.isRole = d.isRole := by
  obtain ⟨b, hb⟩ := h.directSupertype?_eq_some.1 hp
  obtain ⟨d, hd, rfl⟩ := h.parent?_eq_some hb
  obtain ⟨e, he, hr⟩ := (h.node _ p).1 ((h.forests _).parent_mem t p hb)
  exact ⟨d, e, hd, he, hr⟩

theorem Indexed.mem_directSubtypes (h : s.Indexed) : a ∈ s.directSubtypes t ↔ s.directSupertype? a = some t := by
  rw [directSubtypes, hierarchyOf_eq_forest, (h.forests _).child_iff]
  constructor
  · intro ha
    exact h.directSupertype?_eq_some.2 ⟨_, ha⟩
  · intro ha
    obtain ⟨d, e, hd, he, hr⟩ := h.defined_of_directSupertype? ha
    rw [directSupertype?, h.hierarchyOf_eq hd, ← hr] at ha
    rw [← hierarchyOf_eq_forest, h.hierarchyOf_eq he]
    exact ha

theorem Indexed.directSubtypes_eq_nil (h : s.Indexed) : s.directSubtypes t = [] ↔ ∀ x, s.directSupertype? x ≠ some t := by
  rw [List.eq_nil_iff_forall_not_mem]
  exact forall_congr' fun x => not_congr h.mem_directSubtypes

/-! ## Walks -/

theorem Indexed.supertypes_of_none (h : s.Indexed) (ht : s.get? t = none) : s.supertypes t = [] := by
  rw [supertypes, hierarchyOf_eq_forest]
  apply Hierarchy.supertypes_of_not_contains
  rw [h.node]
  simp [ht]

/-- **The walk upwards.** The element, and then what the walk from its direct supertype finds. -/
theorem Indexed.supertypes_eq (h : s.Indexed) (hd : s.get? t = some d) :
    s.supertypes t = t :: (s.directSupertype? t).elim [] s.supertypes := by
  have hc : (s.forest d.isRole).contains t := (h.node _ t).2 ⟨d, hd, rfl⟩
  rw [supertypes, directSupertype?, h.hierarchyOf_eq hd, Hierarchy.supertypes_eq (h.forests _) hc]
  cases hp : (s.forest d.isRole).parent? t with
  | none => rfl
  | some p =>
    obtain ⟨e, he, hr⟩ := (h.node _ p).1 ((h.forests _).parent_mem t p hp)
    simp only [Option.elim, supertypes, h.hierarchyOf_eq he, hr]

/-- what holds of an element as soon as it holds of its direct supertype holds of all -/
theorem Indexed.supertype_induction (h : s.Indexed) {P : TypeId → Prop}
    (step : ∀ t, (∀ p, s.directSupertype? t = some p → P p) → P t) (t : TypeId) : P t := by
  obtain ⟨rankT, hT⟩ := (h.forests false).ranked
  obtain ⟨rankR, hR⟩ := (h.forests true).ranked
  have side : ∀ (b : Bool) (rank : TypeId → Nat), (∀ n p, (s.forest b).parent? n = some p → rank p < rank n) →
      ∀ t d, s.get? t = some d → d.isRole = b → P t := by
    intro b rank hr t
    induction hk : rank t using Nat.strong_induction_on generalizing t with
    | _ k ih =>
      intro d hd hb
      apply step t
      intro p hp
      obtain ⟨d', e, hd', he, hrole⟩ := h.defined_of_directSupertype? hp
      obtain rfl := Option.some.inj (hd.symm.trans hd')
      rw [directSupertype?, h.hierarchyOf_eq hd, hb] at hp
      exact ih (rank p) (hk ▸ hr t p hp) p rfl e he (hrole.trans hb)
  cases hd : s.get? t with
  | none =>
    apply step t
    intro p hp
    obtain ⟨d, -, hd', -⟩ := h.defined_of_directSupertype? hp
    rw [hd] at hd'
    simp at hd'
  | some d =>
    cases hb : d.isRole with
    | false => exact side false rankT hT t d hd hb
    | true => exact side true rankR hR t d hd hb

theorem Indexed.mem_supertypes_iff (h : s.Indexed) : a ∈ s.supertypes t ↔
    (a = t ∧ ∃ d, s.get? t = some d) ∨ ∃ p, s.directSupertype? t = some p ∧ a ∈ s.supertypes p := by
  cases hd : s.get? t with
  | none =>
    have hp : s.directSupertype? t = none := by
      apply Option.eq_none_iff_forall_not_mem.2
      intro p hp
      obtain ⟨d, -, hd', -⟩ := h.defined_of_directSupertype? hp
      simp [hd] at hd'
    simp [h.supertypes_of_none hd, hp]
  | some d =>
    rw [h.supertypes_eq hd, List.mem_cons]
    cases s.directSupertype? t <;> simp

theorem Indexed.self_mem_supertypes (h : s.Indexed) (hd : s.get? t = some d) : t ∈ s.supertypes t :=
  h.mem_supertypes_iff.2 (Or.inl ⟨rfl, d, hd⟩)

/-- whatever is above an element is defined, on the same side as the element -/
theorem Indexed.defined_of_mem (h : s.Indexed) (ha : a ∈ s.supertypes t) :
    ∃ d e, s.get? t = some d ∧ s.get? a = some e ∧ e.isRole = d.isRole := by
  induction t using h.supertype_induction with
  | _ t ih =>
    rcases h.mem_supertypes_iff.1 ha with ⟨rfl, d, hd⟩ | ⟨p, hp, ha⟩
    · exact ⟨d, d, hd, hd, rfl⟩
    · obtain ⟨d, e, hd, he, hr⟩ := h.defined_of_directSupertype? hp
      obtain ⟨e', f, he', hf, hr'⟩ := ih p hp ha
      obtain rfl := Option.some.inj (he.symm.trans he')
      exact ⟨d, f, hd, hf, hr'.trans hr⟩

theorem Indexed.supertypes_trans (h : s.Indexed) {b : TypeId} (ha : a ∈ s.supertypes t) (hb : b ∈ s.supertypes a) :
    b ∈ s.supertypes t := by
  induction t using h.supertype_induction with
  | _ t ih =>
    rcases h.mem_supertypes_iff.1 ha with ⟨rfl, -⟩ | ⟨p, hp, ha⟩
    · exact hb
    · exact h.mem_supertypes_iff.2 (Or.inr ⟨p, hp, ih p hp ha⟩)

/-- of two elements above a third, one is above the other -/
theorem Indexed.supertypes_linear (h : s.Indexed) {b : TypeId} (ha : a ∈ s.supertypes t) (hb : b ∈ s.supertypes t) :
    a ∈ s.supertypes b ∨ b ∈ s.supertypes a := by
  induction t using h.supertype_induction with
  | _ t ih =>
    rcases h.mem_supertypes_iff.1 ha with ⟨rfl, -⟩ | ⟨p, hp, ha'⟩
    · exact Or.inr hb
    · rcases h.mem_supertypes_iff.1 hb with ⟨rfl, -⟩ | ⟨q, hq, hb'⟩
      · exact Or.inl ha
      · obtain rfl := Option.some.inj (hp.symm.trans hq)
        exact ih p hp ha' hb'

/-- no element is above what it stands under -/
theorem Indexed.not_above_direct (h : s.Indexed) {p : TypeId} (hp : s.directSupertype? t = some p) :
    t ∉ s.supertypes p := by
  induction t using h.supertype_induction generalizing p with
  | _ t ih =>
    intro ht
    obtain ⟨-, e, -, he, -⟩ := h.defined_of_directSupertype? hp
    have hpt : p ∈ s.supertypes t := h.mem_supertypes_iff.2 (Or.inr ⟨p, hp, h.self_mem_supertypes he⟩)
    rcases h.mem_supertypes_iff.1 ht with ⟨rfl, -⟩ | ⟨q, hq, htq⟩
    · exact ih t hp hp ht
    · exact ih p hp hq (h.supertypes_trans htq hpt)

/-- of two elements that are above each other, there is only one -/
theorem Indexed.supertypes_antisymm (h : s.Indexed) (ha : a ∈ s.supertypes t) (ht : t ∈ s.supertypes a) : a = t := by
  rcases h.mem_supertypes_iff.1 ha with ⟨rfl, -⟩ | ⟨p, hp, hap⟩
  · rfl
  · exact absurd (h.supertypes_trans hap ht) (h.not_above_direct hp)

theorem Indexed.mem_subtypes (h : s.Indexed) : a ∈ s.subtypes t ↔ t ∈ s.supertypes a := by
  rw [subtypes, hierarchyOf_eq_forest, Hierarchy.mem_subtypes (h.forests _), ← hierarchyOf_eq_forest]
  constructor
  · intro ht
    obtain ⟨ha, -⟩ := Hierarchy.contains_of_mem_supertypes (h.forests _) ht
    rw [← hierarchyOf_eq_forest] at ha
    obtain ⟨d, hd, hr⟩ := (h.node _ a).1 ha
    rwa [supertypes, h.hierarchyOf_eq hd, hr]
  · intro ht
    obtain ⟨d, e, hd, he, hr⟩ := h.defined_of_mem ht
    rw [supertypes, h.hierarchyOf_eq hd] at ht
    rwa [h.hierarchyOf_eq he, hr]

theorem isSubtypeOf_iff : s.isSubtypeOf a t ↔ t ∈ s.supertypes a := by
  rw [isSubtypeOf, supertypes, Hierarchy.isSubtypeOf_iff]

/-- an element without direct subtypes is above itself alone -/
theorem Indexed.eq_of_leaf (h : s.Indexed) (hl : ∀ x, s.directSupertype? x ≠ some t) (ha : t ∈ s.supertypes a) :
    a = t := by
  induction a using h.supertype_induction with
  | _ a ih =>
    rcases h.mem_supertypes_iff.1 ha with ⟨rfl, -⟩ | ⟨p, hp, ha⟩
    · rfl
    · exact absurd (ih p hp ha ▸ hp) (hl a)

/-- two schemas in which the elements above `t` have the same direct supertypes have the same walk from `t` -/
theorem Indexed.supertypes_congr (h : s.Indexed) (h' : s'.Indexed)
    (hp : ∀ a ∈ s.supertypes t, (∃ e, s'.get? a = some e) ∧ s'.directSupertype? a = s.directSupertype? a)
    (hd : ∃ d, s.get? t = some d) : s'.supertypes t = s.supertypes t := by
  induction t using h.supertype_induction with
  | _ t ih =>
    obtain ⟨d, hd⟩ := hd
    obtain ⟨⟨e, he⟩, hpt⟩ := hp t (h.self_mem_supertypes hd)
    rw [h.supertypes_eq hd, h'.supertypes_eq he, hpt]
    cases hq : s.directSupertype? t with
    | none => rfl
    | some q =>
      obtain ⟨-, f, -, hf, -⟩ := h.defined_of_directSupertype? hq
      exact congrArg (t :: ·) (ih q hq (fun a ha => hp a (h.mem_supertypes_iff.2 (Or.inr ⟨q, hq, ha⟩))) ⟨f, hf⟩)

/-! ## Edits -/

@[simp] theorem forest_setHierarchy (s : Schema) (b c : Bool) (h : Hierarchy TypeId) :
    (s.setHierarchy b h).forest c = if c = b then h else s.forest c := by
  cases b <;> cases c <;> rfl

/-! ### A new element -/

theorem insert_eq_ok {p : TypeId} : s.insert t d p = .ok s' ↔ s.idOf? d.label = none ∧
    ∃ h, (s.forest d.isRole).insert t p = .ok h ∧
      s' = { s.setHierarchy d.isRole h with defs := s.defs.insert t d, labels := s.labels.insert d.label t } := by
  have hfree : (∀ holder, s.idOf? d.label = some holder → some holder = none) ↔ s.idOf? d.label = none := by
    rw [Option.eq_none_iff_forall_ne_some]
    simp
  simp only [insert, bind_eq_ok, checkLabelFree_eq_ok, hfree, liftEdit_eq_ok, pure_eq_ok]
  constructor
  · rintro ⟨-, hl, h, hh, rfl⟩
    exact ⟨hl, h, hh, rfl⟩
  · rintro ⟨hl, h, hh, rfl⟩
    exact ⟨(), hl, h, hh, rfl⟩

section Insert

variable {p : TypeId} (hi : s.insert t d p = .ok s')

include hi

theorem get?_insert (x : TypeId) : s'.get? x = if x = t then some d else s.get? x := by
  obtain ⟨-, h, -, rfl⟩ := insert_eq_ok.1 hi
  exact lookup_insert ..

theorem idOf?_insert (l : Label) : s'.idOf? l = if l = d.label then some t else s.idOf? l := by
  obtain ⟨-, h, -, rfl⟩ := insert_eq_ok.1 hi
  exact lookup_insert ..

theorem tables_insert : s'.metaTypes = s.metaTypes ∧ s'.implicitByOwned = s.implicitByOwned ∧
    s'.implicitByRelation = s.implicitByRelation := by
  obtain ⟨-, h, -, rfl⟩ := insert_eq_ok.1 hi
  cases hb : d.isRole <;> exact ⟨rfl, rfl, rfl⟩

theorem forest_insert : ∃ h, (s.forest d.isRole).insert t p = .ok h ∧
    ∀ b, s'.forest b = if b = d.isRole then h else s.forest b := by
  obtain ⟨-, h, hh, rfl⟩ := insert_eq_ok.1 hi
  exact ⟨h, hh, fun b => forest_setHierarchy s d.isRole b h⟩

theorem insert_indexed (hs : s.Indexed) (hn : s.get? t = none) : s'.Indexed := by
  obtain ⟨hl, -⟩ := insert_eq_ok.1 hi
  obtain ⟨h, hh, hforest⟩ := forest_insert hi
  refine ⟨?_, ?_, ?_⟩
  · intro b
    rw [hforest]
    split
    · exact Hierarchy.insert_forest hh (hs.forests _)
    · exact hs.forests b
  · intro b x
    rw [hforest, get?_insert hi]
    by_cases hx : x = t
    · subst hx
      have hnot : ∀ c, ¬ (s.forest c).contains x := by
        intro c hc
        obtain ⟨e, he, -⟩ := (hs.node c x).1 hc
        simp [hn] at he
      by_cases hb : b = d.isRole
      · simp [hb, Hierarchy.contains_insert hh]
      · simp [hb, hnot, Ne.symm hb]
    · rw [if_neg hx, ← hs.node]
      split
      · rename_i hb
        rw [Hierarchy.contains_insert hh, hb]
        simp [hx]
      · rfl
  · intro l x
    rw [idOf?_insert hi, get?_insert hi]
    by_cases hx : x = t
    · subst hx
      by_cases hlab : l = d.label
      · simp [hlab]
      · simp [hlab, Ne.symm hlab, hs.label, hn]
    · rw [if_neg hx, ← hs.label]
      split
      · rename_i hlab
        simp [hlab, hl, Ne.symm hx]
      · rfl

theorem directSupertype?_insert (hs : s.Indexed) (hn : s.get? t = none) (x : TypeId) :
    s'.directSupertype? x = if x = t then some p else s.directSupertype? x := by
  obtain ⟨h, hh, hforest⟩ := forest_insert hi
  refine hs.directSupertype?_placed (insert_indexed hi hs hn) d.isRole (fun b _ => ?_) (fun b x => ?_) x
  · refine Option.eq_none_iff_forall_ne_some.2 fun q hq => ?_
    obtain ⟨e, he, -⟩ := hs.parent?_eq_some hq
    simp [hn] at he
  · rw [hforest]
    split
    · rename_i hb
      rw [Hierarchy.parent?_insert hh, hb]
      simp
    · rename_i hb
      simp [hb]

end Insert

/-- a new element is taken if its label is free and its supertype is there, on its own side -/
theorem insert_total (hs : s.Indexed) {p : TypeId} {e : TypeDef} (hn : s.get? t = none) (hl : s.idOf? d.label = none)
    (hp : s.get? p = some e) (hr : e.isRole = d.isRole) : ∃ s', s.insert t d p = .ok s' := by
  have ht : ¬ (s.forest d.isRole).contains t := by
    rw [hs.node]
    simp [hn]
  exact ⟨_, insert_eq_ok.2 ⟨hl, _, Hierarchy.insert_eq_ok.2 ⟨ht, (hs.node _ p).2 ⟨e, hp, hr⟩, rfl⟩, rfl⟩⟩

/-! ### A definition replaced -/

/-- the schema with another definition of an element that is there -/
def redefine (s : Schema) (t : TypeId) (d : TypeDef) : Schema := { s with defs := s.defs.insert t d }

theorem change_eq_ok {f : TypeDef → TypeDef} : s.change t f = .ok s' ↔
    ∃ d, s.get? t = some d ∧ s' = s.redefine t (f d) := by
  simp only [change, bind_eq_ok, require_eq_ok, pure_eq_ok, redefine, eq_comm (a := s')]

theorem get?_redefine (s : Schema) (t : TypeId) (d : TypeDef) (x : TypeId) :
    (s.redefine t d).get? x = if x = t then some d else s.get? x := lookup_insert ..

/-- to define an element as it is changes nothing -/
theorem redefine_self (hd : s.get? t = some d) : s.redefine t d = s := by
  have hdefs : s.defs.insert t d = s.defs := by
    refine ExtTreeMap.ext_getElem? fun x => ?_
    rw [lookup_insert]
    split
    · rename_i hx
      rw [hx]
      exact hd.symm
    · rfl
  simp only [redefine, hdefs]

theorem redefine_indexed (hs : s.Indexed) (hd : s.get? t = some d) {d' : TypeDef} (hl : d'.label = d.label)
    (hk : d'.kind = d.kind) : (s.redefine t d').Indexed := by
  have hrole : d'.isRole = d.isRole := by rw [TypeDef.isRole, TypeDef.isRole, hk]
  refine ⟨hs.forests, ?_, ?_⟩
  · intro b x
    apply (hs.node b x).trans
    rw [get?_redefine]
    by_cases hx : x = t
    · simp [hx, hd, hrole]
    · simp [hx]
  · intro l x
    apply (hs.label l x).trans
    rw [get?_redefine]
    by_cases hx : x = t
    · simp [hx, hd, hl]
    · simp [hx]

/-! ### Another label -/

theorem relabel_eq_ok {l : Label} : s.relabel t l = .ok s' ↔
    (∀ holder, s.idOf? l = some holder → holder = t) ∧ ∃ d, s.get? t = some d ∧ s' = { s with
      defs := s.defs.insert t { d with label := l }, labels := (s.labels.erase d.label).insert l t } := by
  simp only [relabel, bind_eq_ok, checkLabelFree_eq_ok, require_eq_ok, pure_eq_ok, Option.some.injEq,
    eq_comm (a := s'), exists_and_left, exists_const]

section Relabel

variable {l : Label} (hr : s.relabel t l = .ok s')

include hr

theorem get?_relabel (x : TypeId) : s'.get? x = if x = t then (s.get? t).map ({ · with label := l }) else s.get? x := by
  obtain ⟨-, d, hd, rfl⟩ := relabel_eq_ok.1 hr
  rw [hd]
  exact lookup_insert ..

theorem directSupertype?_relabel (x : TypeId) : s'.directSupertype? x = s.directSupertype? x := by
  obtain ⟨-, d, hd, rfl⟩ := relabel_eq_ok.1 hr
  rfl

theorem tables_relabel : s'.metaTypes = s.metaTypes ∧ s'.implicitByOwned = s.implicitByOwned ∧
    s'.implicitByRelation = s.implicitByRelation := by
  obtain ⟨-, d, hd, rfl⟩ := relabel_eq_ok.1 hr
  exact ⟨rfl, rfl, rfl⟩

theorem relabel_indexed (hs : s.Indexed) : s'.Indexed := by
  have hget := get?_relabel hr
  obtain ⟨hfree, d, hd, rfl⟩ := relabel_eq_ok.1 hr
  simp only [hd, Option.map_some] at hget
  refine ⟨hs.forests, ?_, ?_⟩
  · intro b x
    apply (hs.node b x).trans
    rw [hget]
    by_cases hx : x = t
    · simp [hx, hd, TypeDef.isRole, TypeDef.kind]
    · simp [hx]
  · intro k x
    rw [hget]
    simp only [idOf?, lookup_insert, lookup_erase]
    by_cases hx : x = t
    · subst hx
      rw [if_pos rfl]
      by_cases hk : k = l
      · simp [hk]
      · rw [if_neg hk]
        split
        · simp [Ne.symm hk]
        · rename_i hkd
          apply (hs.label k x).trans
          simp [hd, Ne.symm hk, Ne.symm hkd]
    · rw [if_neg hx, ← hs.label]
      by_cases hk : k = l
      · rw [if_pos hk, Option.some.injEq]
        exact ⟨fun he => absurd he.symm hx, fun he => absurd (hfree x (hk ▸ he)) hx⟩
      · rw [if_neg hk]
        split
        · rename_i hkd
          have : s.idOf? k = some t := (hs.label k t).2 ⟨d, hd, hkd.symm⟩
          rw [this]
          simp [Ne.symm hx]
        · rfl

end Relabel

theorem relabel_total {l : Label} (hd : s.get? t = some d) (hl : ∀ holder, s.idOf? l = some holder → holder = t) :
    ∃ s', s.relabel t l = .ok s' := ⟨_, relabel_eq_ok.2 ⟨hl, d, hd, rfl⟩⟩

/-! ### An element moved -/

theorem reparent_eq_ok {p : TypeId} {old : Option TypeId} : s.reparent t p = .ok (old, s') ↔
    ∃ h, (s.hierarchyOf t).reparent t p = .ok (old, h) ∧ s' = s.setHierarchy (s.roles.contains t) h := by
  simp only [reparent, bind_eq_ok, liftEdit_eq_ok, pure_eq_ok, Prod.exists, Prod.mk.injEq]
  constructor
  · rintro ⟨o, h, hh, rfl, rfl⟩
    exact ⟨h, hh, rfl⟩
  · rintro ⟨h, hh, rfl⟩
    exact ⟨old, h, hh, rfl, rfl⟩

section Reparent

variable {p : TypeId} {old : Option TypeId} (hm : s.reparent t p = .ok (old, s'))

include hm

theorem tables_reparent : s'.defs = s.defs ∧ s'.labels = s.labels ∧ s'.metaTypes = s.metaTypes ∧
    s'.implicitByOwned = s.implicitByOwned ∧ s'.implicitByRelation = s.implicitByRelation := by
  obtain ⟨h, -, rfl⟩ := reparent_eq_ok.1 hm
  cases hb : s.roles.contains t <;> exact ⟨rfl, rfl, rfl, rfl, rfl⟩

theorem get?_reparent (x : TypeId) : s'.get? x = s.get? x := by
  rw [get?, (tables_reparent hm).1, get?]

theorem defined_of_reparent (hs : s.Indexed) : ∃ d e, s.get? t = some d ∧ s.get? p = some e ∧ e.isRole = d.isRole := by
  obtain ⟨h, hh, -⟩ := reparent_eq_ok.1 hm
  obtain ⟨hfault, -, -⟩ := Hierarchy.reparent_eq_ok.1 hh
  obtain ⟨ht, hp, -, -⟩ := Hierarchy.reparentFault_eq_none.1 hfault
  rw [hierarchyOf_eq_forest] at ht hp
  obtain ⟨d, hd, hdr⟩ := (hs.node _ t).1 ht
  obtain ⟨e, he, her⟩ := (hs.node _ p).1 hp
  exact ⟨d, e, hd, he, her.trans hdr.symm⟩

theorem reparent_indexed (hs : s.Indexed) : s'.Indexed := by
  have hget := get?_reparent hm
  obtain ⟨-, hlabels, -⟩ := tables_reparent hm
  obtain ⟨h, hh, hs'⟩ := reparent_eq_ok.1 hm
  have hforest : ∀ b, s'.forest b = if b = s.roles.contains t then h else s.forest b := by
    intro b
    rw [hs', forest_setHierarchy]
  refine ⟨?_, ?_, ?_⟩
  · intro b
    rw [hforest]
    split
    · exact Hierarchy.reparent_forest hh (hs.forests _)
    · exact hs.forests b
  · intro b x
    rw [hforest, hget, ← hs.node]
    split
    · rename_i hb
      rw [Hierarchy.contains_reparent hh, hierarchyOf_eq_forest, hb]
    · rfl
  · intro l x
    rw [hget, idOf?, hlabels]
    exact hs.label l x

theorem directSupertype?_reparent (hs : s.Indexed) (x : TypeId) :
    s'.directSupertype? x = if x = t then some p else s.directSupertype? x := by
  obtain ⟨d, -, hd, -⟩ := defined_of_reparent hm hs
  obtain ⟨h, hh, hs'⟩ := reparent_eq_ok.1 hm
  have hside : s.roles.contains t = d.isRole := by
    rw [Bool.eq_iff_iff, hs.role_iff]
    simp [hd]
  refine hs.directSupertype?_placed (reparent_indexed hm hs) d.isRole (fun b hb => ?_) (fun b x => ?_) x
  · refine Option.eq_none_iff_forall_ne_some.2 fun q hq => hb ?_
    obtain ⟨e, he, rfl⟩ := hs.parent?_eq_some hq
    rw [Option.some.inj (hd.symm.trans he)]
  · rw [hs', forest_setHierarchy, hside]
    split
    · rename_i hb
      rw [Hierarchy.parent?_reparent hh, hierarchyOf_eq_forest, hside, hb]
      simp
    · rename_i hb
      simp [hb]

end Reparent

theorem reparent_total (hs : s.Indexed) {p q : TypeId} {e : TypeDef} (hd : s.get? t = some d) (hp : s.get? p = some e)
    (hr : e.isRole = d.isRole) (hq : s.directSupertype? t = some q) (hbelow : t ∉ s.supertypes p) :
    ∃ s', s.reparent t p = .ok (some q, s') := by
  have hforest : s.hierarchyOf t = s.forest d.isRole := hs.hierarchyOf_eq hd
  have hparent : (s.hierarchyOf t).parent? t = some q := hq
  have hroot : ¬ (s.hierarchyOf t).isRoot t := by
    obtain ⟨node, hnode, hnp⟩ := Option.bind_eq_some_iff.1 hparent
    simp [Hierarchy.isRoot, hnode, hnp]
  have hcycle : ¬ (s.hierarchyOf t).isSubtypeOf p t := by
    rw [Hierarchy.isSubtypeOf_iff, hforest, ← hr, ← hs.hierarchyOf_eq hp]
    exact hbelow
  have hfault : (s.hierarchyOf t).reparentFault t p = none := by
    refine Hierarchy.reparentFault_eq_none.2 ⟨?_, ?_, hroot, hcycle⟩
    · rw [hforest]
      exact (hs.node _ t).2 ⟨d, hd, rfl⟩
    · rw [hforest]
      exact (hs.node _ p).2 ⟨e, hp, hr⟩
  exact ⟨_, reparent_eq_ok.2 ⟨_, Hierarchy.reparent_eq_ok.2 ⟨hfault, hparent.symm, rfl⟩, rfl⟩⟩

/-! ### An element removed -/

theorem remove_eq_ok : s.remove t = .ok (d, s') ↔ s.get? t = some d ∧ ∃ h, (s.hierarchyOf t).remove t = .ok h ∧
    s' = { s.setHierarchy (s.roles.contains t) h with defs := s.defs.erase t, labels := s.labels.erase d.label } := by
  simp only [remove, bind_eq_ok, liftEdit_eq_ok, require_eq_ok, pure_eq_ok, Prod.mk.injEq]
  constructor
  · rintro ⟨h, hh, e, he, rfl, rfl⟩
    exact ⟨he, h, hh, rfl⟩
  · rintro ⟨hd, h, hh, rfl⟩
    exact ⟨h, hh, d, hd, rfl, rfl⟩

section Remove

variable (hr : s.remove t = .ok (d, s'))

include hr

theorem get?_remove (x : TypeId) : s'.get? x = if x = t then none else s.get? x := by
  obtain ⟨-, h, -, rfl⟩ := remove_eq_ok.1 hr
  exact lookup_erase ..

theorem idOf?_remove (l : Label) : s'.idOf? l = if l = d.label then none else s.idOf? l := by
  obtain ⟨-, h, -, rfl⟩ := remove_eq_ok.1 hr
  exact lookup_erase ..

theorem tables_remove : s'.metaTypes = s.metaTypes ∧ s'.implicitByOwned = s.implicitByOwned ∧
    s'.implicitByRelation = s.implicitByRelation := by
  obtain ⟨-, h, -, rfl⟩ := remove_eq_ok.1 hr
  cases hb : s.roles.contains t <;> exact ⟨rfl, rfl, rfl⟩

theorem forest_remove (hs : s.Indexed) : ∃ h, (s.forest d.isRole).remove t = .ok h ∧
    ∀ b, s'.forest b = if b = d.isRole then h else s.forest b := by
  obtain ⟨hd, h, hh, rfl⟩ := remove_eq_ok.1 hr
  have hside : s.roles.contains t = d.isRole := by
    rw [Bool.eq_iff_iff, hs.role_iff]
    simp [hd]
  rw [hs.hierarchyOf_eq hd] at hh
  exact ⟨h, hh, fun b => by rw [← hside]; exact forest_setHierarchy s _ b h⟩

theorem no_subtype_of_removed (hs : s.Indexed) (x : TypeId) : s.directSupertype? x ≠ some t := by
  intro hx
  obtain ⟨h, hh, -⟩ := forest_remove hr hs
  obtain ⟨e, f, he, hf, hrole⟩ := hs.defined_of_directSupertype? hx
  obtain rfl := Option.some.inj ((remove_eq_ok.1 hr).1.symm.trans hf)
  rw [directSupertype?, hs.hierarchyOf_eq he, ← hrole] at hx
  exact Hierarchy.no_child_of_removed hh (hs.forests _) x hx

theorem remove_indexed (hs : s.Indexed) : s'.Indexed := by
  have hd := (remove_eq_ok.1 hr).1
  obtain ⟨h, hh, hforest⟩ := forest_remove hr hs
  refine ⟨?_, ?_, ?_⟩
  · intro b
    rw [hforest]
    split
    · exact Hierarchy.remove_forest hh (hs.forests _)
    · exact hs.forests b
  · intro b x
    have hx := hs.node b x
    rw [hforest, get?_remove hr]
    split
    · rename_i hb
      rw [Hierarchy.contains_remove hh, ← hb, hx]
      by_cases hxt : x = t <;> simp [hxt]
    · rename_i hb
      rw [hx]
      by_cases hxt : x = t
      · simp [hxt, hd, Ne.symm hb]
      · simp [hxt]
  · intro l x
    rw [idOf?_remove hr, get?_remove hr]
    by_cases hx : x = t
    · subst hx
      rw [if_pos rfl]
      split
      · simp
      · rename_i hl
        rw [hs.label]
        simp [hd, Ne.symm hl]
    · rw [if_neg hx, ← hs.label]
      split
      · rename_i hl
        have : s.idOf? l = some t := (hs.label l t).2 ⟨d, hd, hl.symm⟩
        rw [this]
        simp [Ne.symm hx]
      · rfl

theorem directSupertype?_remove (hs : s.Indexed) (x : TypeId) :
    s'.directSupertype? x = if x = t then none else s.directSupertype? x := by
  have hd := (remove_eq_ok.1 hr).1
  obtain ⟨h, hh, hforest⟩ := forest_remove hr hs
  have hs' := remove_indexed hr hs
  split
  · rename_i hx
    apply Option.eq_none_iff_forall_ne_some.2
    intro q hq
    obtain ⟨e, -, he, -⟩ := hs'.defined_of_directSupertype? hq
    rw [get?_remove hr, if_pos hx] at he
    simp at he
  · rename_i hx
    apply Option.ext
    intro q
    have hparent : ∀ b, (s'.forest b).parent? x = (s.forest b).parent? x := by
      intro b
      rw [hforest]
      split
      · rename_i hb
        rw [Hierarchy.parent?_remove hh, if_neg hx, hb]
      · rfl
    rw [hs'.directSupertype?_eq_some, hs.directSupertype?_eq_some]
    simp only [hparent]

end Remove

theorem remove_total (hs : s.Indexed) (hd : s.get? t = some d) (hl : ∀ x, s.directSupertype? x ≠ some t) :
    ∃ s', s.remove t = .ok (d, s') := by
  have hc : (s.forest d.isRole).contains t := (hs.node _ t).2 ⟨d, hd, rfl⟩
  have hleaf : (s.forest d.isRole).children t = [] := by
    refine List.eq_nil_iff_forall_not_mem.2 fun x hx => hl x ?_
    exact hs.directSupertype?_eq_some.2 ⟨_, ((hs.forests _).child_iff x t).1 hx⟩
  have hh : (s.hierarchyOf t).remove t = .ok ⟨((s.hierarchyOf t).detach t).nodes.erase t⟩ := by
    rw [hs.hierarchyOf_eq hd]
    exact Hierarchy.remove_eq_ok.2 ⟨hc, hleaf, rfl⟩
  exact ⟨_, remove_eq_ok.2 ⟨hd, _, hh, rfl⟩⟩

/-! ### All definitions changed -/

/-- the schema with each definition changed -/
def redefineAll (s : Schema) (f : TypeDef → TypeDef) : Schema := { s with defs := s.defs.map fun _ d => f d }

theorem get?_redefineAll (s : Schema) (f : TypeDef → TypeDef) (x : TypeId) :
    (s.redefineAll f).get? x = (s.get? x).map f := ExtTreeMap.getElem?_map ..

theorem redefineAll_indexed (hs : s.Indexed) {f : TypeDef → TypeDef} (hl : ∀ d, (f d).label = d.label)
    (hk : ∀ d, (f d).kind = d.kind) : (s.redefineAll f).Indexed := by
  have hrole : ∀ d, (f d).isRole = d.isRole := fun d => by rw [TypeDef.isRole, TypeDef.isRole, hk]
  refine ⟨hs.forests, ?_, ?_⟩
  · intro b x
    apply (hs.node b x).trans
    simp [get?_redefineAll, hrole]
  · intro l x
    apply (hs.label l x).trans
    simp [get?_redefineAll, hl]

end Schema

end ConceptGraph
