/-
A type moved under another supertype, and back.

- `reparent_order`: a move leaves the other siblings in their order, wherever it goes from and to.
- `SameButPlace`: two states that are equal, but for the place of one element among its siblings.
- `Sound.role_defined_below`: who has been looked at when an element is moved plays no role that is gone. Relations that
  have lost their type are in such roles only (`StraysApart`), so they are not in the way when the element is moved back.
- `perform_setSupertype_back`: what has been moved can be moved back, and then all is as before.
- `Session.moved_back`: so it is in every transaction that a session gets to.
-/
import ConceptGraph.Proofs.Types.Reparenting

namespace ConceptGraph

open Std

namespace Schema

variable {s s' s'' : Schema} {a p q : TypeId} {old old' : Option TypeId}

/-! ## Siblings -/

/-- direct subtypes are listed once each, so it is enough to know which they are -/
theorem directSubtypes_perm (hs : s.Indexed) (hs' : s'.Indexed)
    (hparent : ∀ x, s'.directSupertype? x = s.directSupertype? x) (x : TypeId) :
    (s'.directSubtypes x).Perm (s.directSubtypes x) := by
  refine (List.perm_ext_iff_of_nodup ((hs'.forests _).nodup x) ((hs.forests _).nodup x)).2 fun y => ?_
  exact (hs'.mem_directSubtypes.trans (by rw [hparent])).trans hs.mem_directSubtypes.symm

theorem reparent_order (hs : s.Indexed) (hm : s.reparent a p = .ok (old, s')) (x : TypeId) :
    (s'.directSubtypes x).filter (· != a) = (s.directSubtypes x).filter (· != a) := by
  obtain ⟨h, hh, rfl⟩ := reparent_eq_ok.1 hm
  -- the roles stay roles, so each element is looked up in the same forest as before
  have hroles : (s.setHierarchy (s.roles.contains a) h).roles.contains x = s.roles.contains x := by
    have hside : (s.setHierarchy (s.roles.contains a) h).roles =
        if true = s.roles.contains a then h else s.roles := forest_setHierarchy s _ true h
    rw [hside]
    split
    · rename_i hr
      rw [Bool.eq_iff_iff, Hierarchy.contains_reparent hh, hierarchyOf_eq_forest, ← hr]
      rfl
    · rfl
  rw [directSubtypes, hierarchyOf_eq_forest, hroles, forest_setHierarchy, directSubtypes, hierarchyOf_eq_forest]
  split
  · rename_i hside
    have hf : (s.hierarchyOf a).Forest := hs.forests _
    rw [hside, ← hierarchyOf_eq_forest]
    by_cases hp : (s.hierarchyOf a).parent? a = some p
    · rw [(Hierarchy.reparent_eq_ok.1 hh).2.2, if_pos hp]
    · rw [Hierarchy.children_moved hh hf hp]
      split
      · rename_i hx
        simp [hx]
      · simp [List.filter_filter]
  · rfl

/-! ## There and back -/

section Back

variable (hs : s.Indexed) (hq : s.directSupertype? a = some q) (hm : s.reparent a p = .ok (old, s'))
  (hb : s'.reparent a q = .ok (old', s''))

include hs hq hm hb

theorem directSupertype?_back (x : TypeId) : s''.directSupertype? x = s.directSupertype? x := by
  rw [directSupertype?_reparent hb (reparent_indexed hm hs), directSupertype?_reparent hm hs]
  by_cases hx : x = a
  · rw [if_pos hx, hx, hq]
  · rw [if_neg hx, if_neg hx]

theorem extends_back (issued : TypeId → Prop) : s.Extends issued s'' := by
  have hget : ∀ x, s''.get? x = s.get? x := fun x => (get?_reparent hb x).trans (get?_reparent hm x)
  refine ⟨fun x d hd => ⟨d, (hget x).trans hd, .refl d⟩, fun x _ hnone => (hget x).trans hnone,
    fun x _ _ => directSupertype?_back hs hq hm hb x, fun x _ => ?_⟩
  obtain ⟨-, -, -, -, hr⟩ := tables_reparent hm
  obtain ⟨-, -, -, -, hr'⟩ := tables_reparent hb
  rw [implicitForRelation?, hr', hr]
  rfl

theorem supertypes_back (x : TypeId) : s''.supertypes x = s.supertypes x := by
  have hx := extends_back hs hq hm hb fun _ => True
  have hs'' := reparent_indexed hb (reparent_indexed hm hs)
  cases hd : s.get? x with
  | none => rw [hs.supertypes_of_none hd, hs''.supertypes_of_none (hx.undefined x trivial hd)]
  | some d => exact hx.supertypes hs hs'' hd

end Back

end Schema

namespace State

variable {s : State} {first : UInt64} {n : Nat} {a p q : TypeId} {old old' : Option TypeId} {moved restored : Schema}

/-- the two states are equal, but for the place of the element among its siblings -/
structure SameButPlace (s s' : State) (a : TypeId) : Prop where
  graph : s'.graph = s.graph
  defs : s'.schema.defs = s.schema.defs
  labels : s'.schema.labels = s.schema.labels
  metas : s'.schema.metaTypes = s.schema.metaTypes
  byOwned : s'.schema.implicitByOwned = s.schema.implicitByOwned
  byRelation : s'.schema.implicitByRelation = s.schema.implicitByRelation
  parents : ∀ x, s'.schema.directSupertype? x = s.schema.directSupertype? x
  supertypes : ∀ x, s'.schema.supertypes x = s.schema.supertypes x
  subtypes : ∀ x, (s'.schema.directSubtypes x).Perm (s.schema.directSubtypes x)
  order : ∀ x, (s'.schema.directSubtypes x).filter (· != a) = (s.schema.directSubtypes x).filter (· != a)

theorem SameButPlace.refl (s : State) (a : TypeId) : s.SameButPlace s a :=
  ⟨rfl, rfl, rfl, rfl, rfl, rfl, fun _ => rfl, fun _ => rfl, fun _ => .refl _, fun _ => rfl⟩

theorem sameButPlace_back (hs : s.schema.Indexed) (hq : s.schema.directSupertype? a = some q)
    (hm : s.schema.reparent a p = .ok (old, moved)) (hb : moved.reparent a q = .ok (old', restored)) :
    s.SameButPlace { s with schema := restored } a := by
  have hs' := Schema.reparent_indexed hm hs
  have hparent := Schema.directSupertype?_back hs hq hm hb
  obtain ⟨hdefs, hlabels, hmetas, howned, hrelation⟩ := Schema.tables_reparent hm
  obtain ⟨hdefs', hlabels', hmetas', howned', hrelation'⟩ := Schema.tables_reparent hb
  exact {
    graph := rfl
    defs := hdefs'.trans hdefs
    labels := hlabels'.trans hlabels
    metas := hmetas'.trans hmetas
    byOwned := howned'.trans howned
    byRelation := hrelation'.trans hrelation
    parents := hparent
    supertypes := Schema.supertypes_back hs hq hm hb
    subtypes := Schema.directSubtypes_perm hs (Schema.reparent_indexed hb hs') hparent
    order := fun x => (Schema.reparent_order hs' hb x).trans (Schema.reparent_order hs hm x) }

/-! ## What has been looked at -/

/-- whoever is below an element that conforms plays roles that are there, even in relations that have lost their type -/
theorem Sound.role_defined_below (h : s.Sound first n) (hc : s.checkConformance a = .ok ()) {r x : ThingId}
    {role : TypeId} {th : Thing} (hst : s.Stray r) (hp : s.graph.Plays r role x) (hth : s.graph.get? x = some th)
    (ha : a ∈ s.schema.supertypes th.type) : ∃ d, s.schema.get? role = some d := by
  have hfault := (checkConformance_eq_ok.1 hc).2 (x, th) ((mem_instances h.coherent.indexed h.indexed).2 ⟨hth, ha⟩)
  have hplays := roleFault_eq_none.1 (thingFault_eq_none.1 hfault).2.1 ⟨r, role⟩
    ((Graph.mem_relationsOf h.indexed).2 hp) (hst.edge?_isNone h.recorded)
  obtain ⟨b, -, e, he, hrole⟩ := Schema.playsRole_iff.1 hplays
  obtain ⟨d, hd, -⟩ := (h.coherent.refs b e he).plays role hrole
  exact ⟨d, hd⟩

section Back

variable (h : s.Sound first n) (hst : s.StraysApart first n) (hap : s.MayStandUnder a p)
  (hq : s.schema.directSupertype? a = some q) (hm : s.schema.reparent a p = .ok (old, moved))
  (hconf : ({ s with schema := moved } : State).checkConformance a = .ok ())

include h hap hq hm

theorem MayStandUnder.back : ({ s with schema := moved } : State).MayStandUnder a q := by
  have hget := Schema.get?_reparent hm
  obtain ⟨-, -, hmeta, -, -⟩ := Schema.tables_reparent hm
  obtain ⟨d, -, he, -⟩ := hap
  obtain ⟨q', hq', hroot, e, hqe, hk⟩ := h.coherent.parented a d he.1 he.2.1
  obtain rfl := Option.some.inj (hq.symm.trans hq')
  refine ⟨d, e, ⟨(hget a).trans he.1, ?_, he.2.2⟩, (hget q).trans hqe, hk, ?_, fun hi => ?_⟩
  · rw [Schema.isMeta_congr hmeta]
    exact he.2.1
  · rwa [hmeta]
  · -- nothing stands under what was made to record ownerships
    obtain ⟨r, hr, hmade⟩ := h.recorded.reserved q e hqe hi
    obtain ⟨e', hbacks⟩ := h.recorded.backed r hr
    exact hbacks.leaf a q hmade hq

include hst hconf in
/-- the element suits its old supertype, and the check of the first move says why nothing is in the way -/
theorem Sound.checkConformance_back (hb : moved.reparent a q = .ok (old', restored)) :
    ({ s with schema := restored } : State).checkConformance a = .ok () := by
  have hs := h.coherent.indexed
  have hmoved := h.reparent hm (hap.coherent h hm) (hap.recorded h hm) hconf
  have hapb := hap.back h hq hm
  have hcb := hapb.coherent hmoved hb
  have hx := Schema.extends_back hs hq hm hb fun t => Issued first n t.raw
  have hget : ∀ x, restored.get? x = s.schema.get? x := fun x =>
    (Schema.get?_reparent hb x).trans (Schema.get?_reparent hm x)
  have hag := hx.agreeing hs hcb.indexed h.agreeing fun x b v hnone hv _ _ => by
    simp [Schema.declaredDataType?, hget, hnone] at hv
  have h' : ({ s with schema := restored } : State).Sound first n :=
    h.extend hx le_rfl hcb (hapb.recorded hmoved hb) hag fun x d hd => h.issuedTypes x d ((hget x).symm.trans hd)
  refine checkConformance_of_conform h'.coherent.indexed h'.recorded h'.indexed (fun _ _ _ => h'.kind_of_type)
    h'.thingsConform (h'.agreeing.declaresInherited h'.coherent.indexed) (fun _ _ => h'.edge_of_mem) ?_
  rintro r role x th ⟨b, hbare, hnone⟩ hp hth ha
  rw [hget] at hnone
  have ha' : a ∈ moved.supertypes th.type := by
    rw [Schema.supertypes_back hs hq hm hb] at ha
    exact ((Schema.reparent_moves hs hm).below_iff hs (Schema.reparent_indexed hm hs)).2 ha
  obtain ⟨d, hd⟩ := hmoved.role_defined_below hconf ⟨b, hbare, (Schema.get?_reparent hm _).trans hnone⟩ hp hth ha'
  rw [Schema.get?_reparent hm, hst.roles r role x ⟨b, hbare, hnone⟩ hp] at hd
  simp at hd

end Back

end State

namespace Transaction

open State

variable {first : UInt64} {n : Nat} {t : Transaction} {a p : TypeId} {r : Reply}

/-- **What has been moved can be moved back**, and then all is as before. -/
theorem perform_setSupertype_back (h : t.working.Sound first n) (hst : t.working.StraysApart first n)
    (hok : (t.perform (.setSupertype a p)).1 = .ok r) : ∃ q t', t.working.schema.directSupertype? a = some q ∧
      (t.perform (.setSupertype a p)).2.perform (.setSupertype a q) = (.ok .done, t') ∧
        t.working.SameButPlace t'.working a := by
  have hc := perform_setSupertype_iff.1 ⟨r, hok⟩
  obtain ⟨hap, hmove⟩ := checkSetSupertype_eq_ok.1 hc
  by_cases hsame : t.working.schema.directSupertype? a = some p
  · refine ⟨p, t, hsame, ?_, .refl _ a⟩
    rw [perform_setSupertype_same hc hsame]
    exact perform_setSupertype_same hc hsame
  · obtain ⟨hbelow, old, moved, hm, hconf⟩ := hmove.resolve_left hsame
    obtain ⟨q, _, hq, -⟩ := hap.reparent h hbelow
    have hs := h.coherent.indexed
    have hmoves := Schema.reparent_moves hs hm
    have hmoved := h.reparent hm (hap.coherent h hm) (hap.recorded h hm) hconf
    have hapb := hap.back h hq hm
    have hbelow' : a ∉ moved.supertypes q := by
      rw [hmoves.below_iff hs hmoved.coherent.indexed]
      exact hs.not_above_direct hq
    obtain ⟨_, restored, -, hb⟩ := hapb.reparent hmoved hbelow'
    have hcb := h.checkConformance_back hst hap hq hm hconf hb
    have hnew : moved.directSupertype? a ≠ some q := by
      rw [hmoves.parent, if_pos rfl]
      rintro hpq
      exact hsame (hq.trans hpq.symm)
    rw [perform_setSupertype hc hsame hm]
    exact ⟨q, _, hq, perform_setSupertype (checkSetSupertype_eq_ok.2 ⟨hapb, Or.inr ⟨hbelow', _, restored, hb, hcb⟩⟩) hnew hb,
      sameButPlace_back hs hq hm hb⟩

end Transaction

namespace Session

open State Transaction

variable {config : SessionConfig} {ids : Option IdSource} {journal : Option Journal} {s : Session} {es : List Event}
  {t : Transaction} {a p : TypeId} {r : Reply}

/-- **A type that has been moved** can be moved back at once, and then all is as before, but for its place among its
siblings. -/
theorem moved_back (hs : start config ids journal = .ok s) (hfit : s.issued es < 2 ^ 64)
    (hw : (s.run es).writer = some t) (hok : (t.perform (.setSupertype a p)).1 = .ok r) :
    ∃ old t', t.working.schema.directSupertype? a = some old ∧
      (t.perform (.setSupertype a p)).2.perform (.setSupertype a old) = (.ok .done, t') ∧
        t.working.SameButPlace t'.working a :=
  perform_setSupertype_back ((run_sound hs hfit (List.prefix_refl _)).writer hw).working
    ((run_straysApart hs hfit).writer t hw).working hok

/-- adults, as children, are persons -/
def childAndAdult : List Event :=
  childOfPerson ++ [.perform (.putEntityType "adult"), .perform (.setSupertype ⟨16⟩ ⟨6⟩)]

set_option maxRecDepth 10000 in
/-- children that have been citizens are persons again, but adults come first now -/
theorem childAndAdult_moved_back : blank.issued childAndAdult < 2 ^ 64 ∧ ∃ t,
    (blank.run childAndAdult).writer = some t ∧ t.working.schema.directSubtypes ⟨6⟩ = [⟨12⟩, ⟨16⟩] ∧
      (t.perform (.setSupertype ⟨12⟩ ⟨11⟩)).1 = .ok .done ∧ ∃ t',
        (t.perform (.setSupertype ⟨12⟩ ⟨11⟩)).2.perform (.setSupertype ⟨12⟩ ⟨6⟩) = (.ok .done, t') ∧
          t'.working.schema.directSubtypes ⟨6⟩ = [⟨16⟩, ⟨12⟩] ∧ t.working.SameButPlace t'.working ⟨12⟩ := by
  have hfit : blank.issued childAndAdult < 2 ^ 64 := by decide +kernel
  have hfound : (blank.run childAndAdult).writer.map (fun t => (t.working.schema.directSupertype? ⟨12⟩,
      t.working.schema.directSubtypes ⟨6⟩, (t.perform (.setSupertype ⟨12⟩ ⟨11⟩)).1.toOption,
        ((t.perform (.setSupertype ⟨12⟩ ⟨11⟩)).2.perform (.setSupertype ⟨12⟩ ⟨6⟩)).2.working.schema.directSubtypes ⟨6⟩)) =
      some (some ⟨6⟩, [⟨12⟩, ⟨16⟩], some .done, [⟨16⟩, ⟨12⟩]) := by decide +kernel
  obtain ⟨t, hw, ht⟩ := Option.map_eq_some_iff.1 hfound
  simp only [Prod.mk.injEq, toOption_eq_some] at ht
  obtain ⟨hdirect, hbefore, hok, hafter⟩ := ht
  obtain ⟨old, t', hold, hback, hsame⟩ := moved_back start_testing hfit hw hok
  obtain rfl := Option.some.inj (hdirect.symm.trans hold)
  rw [hback] at hafter
  exact ⟨hfit, t, hw, hbefore, hok, t', hback, hafter, hsame⟩

end Session

end ConceptGraph
