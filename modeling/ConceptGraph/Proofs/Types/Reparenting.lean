/-
Types moved under another supertype: what is looked at before, and that it is enough.

- `DeclaresInherited`, `ThingsConform`: what there is to say of all types and of all instances.
- `checkConformance_of_conform`: then nothing is wrong below any element, as long as no relation that has lost its type
  plays with what is there.
- `Sound.checkConformance_iff`: the other way round, all types and all instances conform when nothing is wrong below the
  element that is moved. The rest inherits what it did before.
- `Session.moved_iff_all_conform`: so it is in every transaction that a session gets to.
-/
import ConceptGraph.Proofs.Instances.Conformance
import ConceptGraph.Proofs.Instances.Strays
import ConceptGraph.Proofs.Instances.Typing

namespace ConceptGraph

open Std

/-! ## What has to conform -/

/-- a type that declares a data type declares the one it would inherit, if there is one -/
def Schema.DeclaresInherited (s : Schema) : Prop := ∀ x v p w, s.declaredDataType? x = some v →
  s.directSupertype? x = some p → s.dataType? p = some w → w = v

theorem Schema.Agreeing.declaresInherited {s : Schema} (h : s.Agreeing) (hs : s.Indexed) : s.DeclaresInherited := by
  intro x v p w hv hp hw
  obtain ⟨c, hc, hcw⟩ := dataType?_sound hw
  obtain ⟨d, -, hd, -, -⟩ := hs.defined_of_directSupertype? hp
  exact h x c x w v (hs.mem_supertypes_iff.2 (Or.inr ⟨p, hp, hc⟩)) (hs.self_mem_supertypes hd) hcw hv

namespace State

variable {s : State} {schema' : Schema} {first : UInt64} {n : Nat} {a p : TypeId} {old : Option TypeId}

/-- values, players and ownerships are as the types of the instances want them -/
structure ThingsConform (s : State) : Prop where
  valued : ∀ id th v, s.graph.get? id = some th → th.value? = some v → s.schema.dataType? th.type = some v.dataType
  matched : ∀ id th v text, s.graph.get? id = some th → th.value? = some v → v.string? = some text →
    ∀ a ∈ s.schema.supertypes th.type, ∀ p, s.schema.declaredRegex? a = some p → p.isMatch text
  playing : ∀ id th d, s.graph.get? id = some th → s.schema.get? th.type = some d → ¬ d.isImplicit →
    ∀ rp ∈ th.rolePlayers, (∃ a ∈ s.schema.supertypes th.type, s.schema.DeclaresRelates a rp.role) ∧
      ∃ player, s.graph.get? rp.player = some player ∧
        ∃ a ∈ s.schema.supertypes player.type, s.schema.DeclaresPlays a rp.role
  holding : ∀ q r o a, s.Edge q r o a → s.MayHold o a

theorem Sound.thingsConform (h : s.Sound first n) : s.ThingsConform where
  valued := h.conforms.valued
  matched := h.conforms.matched
  playing := h.conforms.playing
  holding _ _ _ _ hedge := hedge.mayHold h.recorded h.instances

/-- instances are of the kind that their type is -/
theorem Sound.kind_of_type (h : s.Sound first n) {id : ThingId} {th : Thing} {d : TypeDef}
    (hth : s.graph.get? id = some th) (hd : s.schema.get? th.type = some d) : d.kind = th.kind := by
  rcases h.instances.typed id _ (Graph.bare?_of_get? hth) with ⟨e, he, hk⟩ | ⟨hnone, -⟩
  · rw [Thing.bare_type, hd] at he
    rw [Option.some.inj he, hk, Thing.kind_bare]
  · rw [Thing.bare_type, hd] at hnone
    simp at hnone

/-! ## From everything to what is below an element -/

theorem bodyFault_eq_none {id : ThingId} {th : Thing}
    (hv : ∀ v, th.value? = some v → s.schema.dataType? th.type = some v.dataType)
    (hm : ∀ v text, th.value? = some v → v.string? = some text → s.mismatch? th.type text = none)
    (hp : ¬ s.schema.isImplicitRelation th.type → ∀ rp ∈ th.rolePlayers, s.schema.relatesRole th.type rp.role) :
    s.bodyFault id th = none := by
  obtain ⟨ty, body⟩ := th
  cases body with
  | entity => rfl
  | «attribute» v =>
    simp only [bodyFault, hv v rfl, ne_eq, not_true_eq_false, if_false]
    cases htext : v.string? with
    | none => rfl
    | some text => simp [hm v text rfl htext]
  | relation ps =>
    simp only [bodyFault, ite_eq_left_iff, List.findSome?_eq_none_iff, reduceCtorEq, imp_false, not_not]
    exact hp

section Conforming

variable (hs : s.schema.Indexed) (hr : s.schema.Recorded) (hg : s.graph.Indexed)
  (hkind : ∀ id th d, s.graph.get? id = some th → s.schema.get? th.type = some d → d.kind = th.kind)
  (hc : s.ThingsConform)

include hr hkind in
/-- what does not record an ownership is not of a type made for that -/
theorem plain_of_no_record {id : ThingId} {th : Thing} {d : TypeDef} {rp : RolePlayer}
    (hth : s.graph.get? id = some th) (hd : s.schema.get? th.type = some d)
    (hrp : rp ∈ th.rolePlayers) (hq : s.schema.implicitForRelation? th.type = none) : ¬ d.isImplicit := by
  have hp : s.graph.Plays id rp.role rp.player := (Graph.plays_iff hth).2 hrp
  obtain ⟨b, hb, hrel⟩ := hp.relation
  rw [Graph.bare?_of_get? hth] at hb
  obtain rfl := Option.some.inj hb
  rw [Thing.isRelation_iff_kind, Thing.kind_bare] at hrel
  rw [hr.isImplicit_iff hd ((hkind id th d hth hd).trans hrel)]
  rintro ⟨q, hq'⟩
  rw [hq] at hq'
  simp at hq'

include hr hkind hc in
theorem bodyFault_of_conform {id : ThingId} {th : Thing} {d : TypeDef} (hth : s.graph.get? id = some th)
    (hd : s.schema.get? th.type = some d) : s.bodyFault id th = none := by
  refine bodyFault_eq_none (fun v hv => hc.valued id th v hth hv) (fun v text hv htext => ?_) fun hi rp hrp => ?_
  · refine mismatch?_eq_none.2 fun a q hq => ?_
    obtain ⟨ha, hreg⟩ := Schema.mem_patterns.1 hq
    exact hc.matched id th v text hth hv htext a ha q hreg
  · have hq : s.schema.implicitForRelation? th.type = none := by
      rw [Option.eq_none_iff_forall_ne_some]
      exact fun q hq => hi (hr.isImplicitRelation_iff.2 ⟨q, hq⟩)
    have hplain := plain_of_no_record hr hkind hth hd hrp hq
    exact Schema.relatesRole_iff.2 (hc.playing id th d hth hd hplain rp hrp).1

include hr hg hkind hc in
/-- a player of relations that all have a type -/
theorem roleFault_of_conform {id : ThingId} {th : Thing} (hth : s.graph.get? id = some th)
    (hstray : ∀ r role, s.graph.Plays r role id → ¬ s.Stray r) : s.roleFault id th = none := by
  refine roleFault_eq_none.2 fun m hm hnoedge => ?_
  have hp := (Graph.mem_relationsOf hg).1 hm
  obtain ⟨b, hb, -⟩ := hp.relation
  obtain ⟨rel, hrel, rfl⟩ := Graph.get?_of_bare? hb
  cases hd : s.schema.get? rel.type with
  | none => exact absurd ⟨rel.bare, hb, by rwa [Thing.bare_type]⟩ (hstray _ _ hp)
  | some d =>
    have hq : s.schema.implicitForRelation? rel.type = none := by
      rw [Option.eq_none_iff_forall_ne_some]
      intro q hq
      rw [edge?_eq_some.2 ⟨hrel, hq⟩] at hnoedge
      simp at hnoedge
    have hrp := (Graph.plays_iff hrel).1 hp
    have hplain := plain_of_no_record hr hkind hrel hd hrp hq
    obtain ⟨-, player, hplayer, hplays⟩ := hc.playing _ rel d hrel hd hplain _ hrp
    -- the relation may be anywhere in the graph, but what it says of this player is about the player's own type
    obtain rfl := Option.some.inj (hth.symm.trans hplayer)
    exact Schema.playsRole_iff.2 hplays

include hs hr hg hkind hc in
/-- **Where all types and all instances conform**, nothing is wrong below any element. -/
theorem checkConformance_of_conform (hd : s.schema.DeclaresInherited)
    (hedges : ∀ id, ∀ e ∈ s.ownershipsOf id ++ s.ownersOf id, ∃ q, s.Edge q e.relation e.owner e.held)
    (hstray : ∀ r role x th, s.Stray r → s.graph.Plays r role x → s.graph.get? x = some th →
      a ∉ s.schema.supertypes th.type) : s.checkConformance a = .ok () := by
  refine checkConformance_eq_ok.2 ⟨fun x _ => dataTypeFault_eq_none.2 fun v q w => hd x v q w, ?_⟩
  rintro ⟨id, th⟩ hi
  obtain ⟨hth, ha⟩ := (mem_instances hs hg).1 hi
  obtain ⟨d, -, hdef, -, -⟩ := hs.defined_of_mem ha
  refine thingFault_eq_none.2 ⟨bodyFault_of_conform hr hkind hc hth hdef,
    roleFault_of_conform hr hg hkind hc hth fun r role hp hst => hstray r role id th hst hp hth ha,
    holdingFault_eq_none.2 fun e he => ?_⟩
  obtain ⟨q, hedge⟩ := hedges id e he
  exact hc.holding q _ _ _ hedge

end Conforming

/-! ## The element that is moved -/

section Move

variable (h : s.Sound first n) (hap : s.MayStandUnder a p) (hm : s.schema.reparent a p = .ok (old, schema'))

include h hap

/-- an element that suits another one, and is not above it, can be moved there -/
theorem MayStandUnder.reparent (hbelow : a ∉ s.schema.supertypes p) :
    ∃ q moved, s.schema.directSupertype? a = some q ∧ s.schema.reparent a p = .ok (some q, moved) := by
  obtain ⟨d, e, he, hp, hk, -, -⟩ := hap
  obtain ⟨q, hq, -, -⟩ := h.coherent.parented a d he.1 he.2.1
  have hrole : e.isRole = d.isRole := by rw [TypeDef.isRole, hk, TypeDef.isRole]
  obtain ⟨moved, hm⟩ := Schema.reparent_total h.coherent.indexed he.1 hp hrole hq hbelow
  exact ⟨q, moved, hq, hm⟩

include hm

/-- **To look below the element** is as good as to look at all types and all instances. -/
theorem Sound.checkConformance_iff (htyped : s.Typed) :
    ({ s with schema := schema' } : State).checkConformance a = .ok () ↔
      schema'.DeclaresInherited ∧ ({ s with schema := schema' } : State).ThingsConform := by
  have hc := hap.coherent h hm
  have hr := hap.recorded h hm
  constructor
  · intro hconf
    have h' := h.reparent hm hc hr hconf
    exact ⟨h'.agreeing.declaresInherited hc.indexed, h'.thingsConform⟩
  · rintro ⟨hd, hthings⟩
    have hget := Schema.get?_reparent hm
    have hrel : ∀ id b, s.graph.bare? id = some b →
        ({ s with schema := schema' } : State).schema.implicitForRelation? b.type =
          s.schema.implicitForRelation? b.type := fun _ b _ => implicitForRelation?_move hm b.type
    have hg : ({ s with schema := schema' } : State).graph = s.graph := rfl
    refine checkConformance_of_conform hc.indexed hr h.indexed ?_ hthings hd ?_ ?_
    · exact fun id th d hth hd => h.kind_of_type hth ((hget _).symm.trans hd)
    · -- records stay, so the edges that are found are those that were there
      intro id e he
      rw [ownershipsOf_congr hg hrel, ownersOf_congr hg hrel] at he
      obtain ⟨q, ⟨b, hb, hq⟩, ho, hv⟩ := h.edge_of_mem he
      exact ⟨q, ⟨b, hb, (hrel _ b hb).trans hq⟩, ho, hv⟩
    · rintro r role x th ⟨b, hb, hnone⟩ -
      obtain ⟨d, hd⟩ := htyped r b hb
      rw [hget, hd] at hnone
      simp at hnone

end Move

end State

namespace Transaction

open State

variable {t : Transaction} {a p : TypeId} {old : Option TypeId} {moved : Schema}

/-- an element that stands there already -/
theorem perform_setSupertype_same (hc : t.working.checkSetSupertype a p = .ok ())
    (hsame : t.working.schema.directSupertype? a = some p) : t.perform (.setSupertype a p) = (.ok .done, t) := by
  refine perform_allowed rfl hc ?_
  rw [outcome_bind, outcome_look]
  simp only [hsame, ne_eq, not_true_eq_false, if_false]
  rfl

/-- a move that the rules allow goes through -/
theorem perform_setSupertype (hc : t.working.checkSetSupertype a p = .ok ())
    (hnew : t.working.schema.directSupertype? a ≠ some p)
    (hm : t.working.schema.reparent a p = .ok (old, moved)) : t.perform (.setSupertype a p) =
      (.ok .done, { t.withSchema moved with mutations := t.mutations ++ [.setSupertype a p] }) := by
  have hmove : (do pure (← t.working.schema.reparent a p).2 : Except ConceptError Schema) = .ok moved := by
    rw [hm]
    rfl
  refine perform_allowed rfl hc ?_
  rw [outcome_bind, outcome_look]
  simp only [if_pos hnew]
  rw [outcome_bind, outcome_editSchema, hmove]
  rfl

theorem perform_setSupertype_iff : (∃ r, (t.perform (.setSupertype a p)).1 = .ok r) ↔
    t.working.checkSetSupertype a p = .ok () := by
  cases hc : t.working.checkSetSupertype a p with
  | error err =>
    rw [perform_refused rfl hc]
    exact iff_of_false (by simp) (by simp)
  | ok u =>
    refine iff_of_true ⟨.done, ?_⟩ rfl
    by_cases hsame : t.working.schema.directSupertype? a = some p
    · rw [perform_setSupertype_same hc hsame]
    · obtain ⟨-, old, moved, hm, -⟩ := (checkSetSupertype_eq_ok.1 hc).2.resolve_left hsame
      rw [perform_setSupertype hc hsame hm]

end Transaction

namespace Session

open State Transaction

variable {config : SessionConfig} {ids : Option IdSource} {journal : Option Journal} {s : Session} {es : List Event}
  {t : Transaction} {a p : TypeId}

/-- **A type is moved** unless that would leave some type or some instance that does not conform. -/
theorem moved_iff_all_conform (hs : start config ids journal = .ok s) (hfit : s.issued es < 2 ^ 64)
    (hw : (s.run es).writer = some t) (htyped : t.working.Typed) (hap : t.working.MayStandUnder a p)
    (hbelow : a ∉ t.working.schema.supertypes p) (hnew : t.working.schema.directSupertype? a ≠ some p) :
    ∃ old moved, t.working.schema.reparent a p = .ok (old, moved) ∧ t.working.schema.Moves moved a p ∧
      ((∃ r, (t.perform (.setSupertype a p)).1 = .ok r) ↔
        moved.DeclaresInherited ∧ ({ t.working with schema := moved } : State).ThingsConform) := by
  have h := ((run_sound hs hfit (List.prefix_refl _)).writer hw).working
  obtain ⟨q, moved, -, hm⟩ := hap.reparent h hbelow
  refine ⟨some q, moved, hm, Schema.reparent_moves h.coherent.indexed hm, ?_⟩
  rw [perform_setSupertype_iff, checkSetSupertype_eq_ok, ← h.checkConformance_iff hap hm htyped]
  constructor
  · rintro ⟨-, hc⟩
    obtain ⟨-, old, moved', hm', hconf⟩ := hc.resolve_left hnew
    rw [hm, Except.ok.injEq, Prod.mk.injEq] at hm'
    rwa [hm'.2]
  · intro hconf
    exact ⟨hap, Or.inr ⟨hbelow, some q, moved, hm, hconf⟩⟩

/-- a child, as a person, with a name; citizens may have names, too -/
def childOfPerson : List Event :=
  [.begin, .perform (.putEntityType "person"), .perform (.putAttributeType "name" (some .string)),
    .perform (.has ⟨6⟩ ⟨7⟩), .perform (.putEntityType "citizen"), .perform (.has ⟨11⟩ ⟨7⟩),
    .perform (.putEntityType "child"), .perform (.setSupertype ⟨12⟩ ⟨6⟩), .perform (.createEntity ⟨12⟩),
    .perform (.putAttribute ⟨7⟩ (.string "x")), .perform (.setHas ⟨13⟩ ⟨14⟩)]

set_option maxRecDepth 10000 in
/-- with its name, the child can be a citizen -/
theorem childOfPerson_moved : blank.issued childOfPerson < 2 ^ 64 ∧ ∃ t, (blank.run childOfPerson).writer = some t ∧
    t.working.Typed ∧ t.working.MayStandUnder ⟨12⟩ ⟨11⟩ ∧ t.working.ownershipBetween? ⟨13⟩ ⟨14⟩ = some ⟨15⟩ ∧
      ∃ old moved, t.working.schema.reparent ⟨12⟩ ⟨11⟩ = .ok (old, moved) ∧ moved.DeclaresInherited ∧
        ({ t.working with schema := moved } : State).ThingsConform := by
  have hfit : blank.issued childOfPerson < 2 ^ 64 := by decide +kernel
  have hfound : (blank.run childOfPerson).writer.map (fun t => (decide t.working.Typed,
      t.working.ownershipBetween? ⟨13⟩ ⟨14⟩, t.working.schema.directSupertype? ⟨12⟩,
        (t.perform (.setSupertype ⟨12⟩ ⟨11⟩)).1.toOption)) = some (true, some ⟨15⟩, some ⟨6⟩, some .done) := by
    decide +kernel
  obtain ⟨t, hw, ht⟩ := Option.map_eq_some_iff.1 hfound
  simp only [Prod.mk.injEq, decide_eq_true_eq, toOption_eq_some] at ht
  obtain ⟨htyped, hheld, hdirect, hok⟩ := ht
  have hnew : t.working.schema.directSupertype? ⟨12⟩ ≠ some ⟨11⟩ := by simp [hdirect]
  obtain ⟨hap, hc⟩ := checkSetSupertype_eq_ok.1 (perform_setSupertype_iff.1 ⟨_, hok⟩)
  obtain ⟨old, moved, hm, -, hiff⟩ :=
    moved_iff_all_conform start_testing hfit hw htyped hap (hc.resolve_left hnew).1 hnew
  exact ⟨hfit, t, hw, htyped, hap, hheld, old, moved, hm, hiff.1 ⟨_, hok⟩⟩

end Session

end ConceptGraph
