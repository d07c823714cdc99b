/-
Edits of the hierarchy: moving an element changes what everything below it inherits, and deleting one takes away all that
is said about it.

- `thingFault_eq_none` and the lemmas before it: what it means that the rules find no fault with an instance.
- `checkSetSupertype_eq_ok`, `checkDeleteType_eq_ok`: what the rules ask for. For a move, the two elements have to suit each
  other (`MayStandUnder`), and unless the one is a direct subtype of the other already, no circle may arise and what is
  below the one has to conform.
- `Sound.reparent`: everything below the element that is moved has been looked at; the rest inherits what it did.
- `Sound.without`: what stays does not rely on what goes. Only a relation that records an ownership can be left without a
  type (`gone_of_instance`).
-/
import ConceptGraph.Proofs.Schema.Moving
import ConceptGraph.Proofs.State.SchemaSteps
import ConceptGraph.Rules.Conformance
import ConceptGraph.Rules.Deletion

namespace ConceptGraph

open Std

namespace State

variable {s : State} {schema' : Schema} {first : UInt64} {n : Nat} {t : TypeId}

/-! ## An element moved -/

theorem dataTypeFault_eq_none : s.dataTypeFault t = none ↔ ∀ v p w, s.schema.declaredDataType? t = some v →
    s.schema.directSupertype? t = some p → s.schema.dataType? p = some w → w = v := by
  simp only [dataTypeFault, bind, Option.bind_eq_none_iff, Schema.declaredDataType?, Option.bind_eq_some_iff,
    ite_eq_left_iff, reduceCtorEq, imp_false, not_not]
  constructor
  · rintro h v p w ⟨d, hd, hv⟩ hp hw
    exact h d hd v hv p hp w hw
  · intro h d hd v hv p hp w hw
    exact h v p w ⟨d, hd, hv⟩ hp hw

theorem mismatch?_eq_none {text : String} : s.mismatch? t text = none ↔
    ∀ a p, (a, p) ∈ s.schema.patterns t → p.isMatch text := by
  simp [mismatch?, List.find?_eq_none]

theorem bodyFault_value {id : ThingId} {th : Thing} {v : Value} (h : s.bodyFault id th = none) (hv : th.value? = some v) :
    s.schema.dataType? th.type = some v.dataType ∧
      ∀ text, v.string? = some text → ∀ a p, (a, p) ∈ s.schema.patterns th.type → p.isMatch text := by
  obtain ⟨ty, body⟩ := th
  cases body with
  | «attribute» w =>
    obtain rfl := Option.some.inj hv
    simp only [bodyFault, ne_eq] at h
    split at h
    · simp at h
    · rename_i hty
      refine ⟨not_not.1 hty, fun text htext => mismatch?_eq_none.1 ?_⟩
      simp only [htext, bind, Option.bind_some, Option.bind_eq_none_iff, reduceCtorEq, imp_false] at h
      exact Option.eq_none_iff_forall_ne_some.2 h
  | _ => simp [Thing.value?] at hv

theorem bodyFault_players {id : ThingId} {th : Thing} {rp : RolePlayer} (h : s.bodyFault id th = none)
    (hi : ¬ s.schema.isImplicitRelation th.type) (hp : rp ∈ th.rolePlayers) : s.schema.relatesRole th.type rp.role := by
  obtain ⟨ty, body⟩ := th
  cases body with
  | relation ps =>
    simp only [bodyFault, if_neg hi, List.findSome?_eq_none_iff, ite_eq_left_iff, reduceCtorEq, imp_false, not_not] at h
    exact h rp hp
  | _ => simp [Thing.rolePlayers, Thing.rolePlayers?] at hp

theorem roleFault_eq_none {id : ThingId} {th : Thing} : s.roleFault id th = none ↔
    ∀ m ∈ s.graph.relationsOf id, (s.edge? m.relation).isNone → s.schema.playsRole th.type m.role := by
  simp [roleFault, List.findSome?_eq_none_iff]

theorem holdingFault_eq_none {id : ThingId} {th : Thing} : s.holdingFault id th = none ↔
    ∀ e ∈ s.ownershipsOf id ++ s.ownersOf id, s.MayHold e.owner e.held := by
  simp only [holdingFault, List.findSome?_eq_none_iff]
  apply forall₂_congr
  intro e _
  unfold MayHold thing Graph.require Graph.bare?
  cases s.graph.get? e.owner with
  | none => simp
  | some o =>
    cases s.graph.get? e.held with
    | none => simp
    | some a => simp [Option.isSome_iff_ne_none]

theorem thingFault_eq_none {id : ThingId} {th : Thing} : s.thingFault id th = none ↔
    s.bodyFault id th = none ∧ s.roleFault id th = none ∧ s.holdingFault id th = none := by
  simp [thingFault, HOrElse.hOrElse, OrElse.orElse]

theorem checkConformance_eq_ok {u : Unit} : s.checkConformance t = .ok u ↔
    (∀ x ∈ s.schema.subtypes t, s.dataTypeFault x = none) ∧ ∀ i ∈ s.instances t, s.thingFault i.1 i.2 = none := by
  simp only [checkConformance, bind_eq_ok, checkEach_eq_ok]
  exact ⟨fun ⟨_, h, h'⟩ => ⟨h, h'⟩, fun ⟨h, h'⟩ => ⟨(), h, h'⟩⟩

/-- an element of a user, and one of its kind that users may put others under -/
def MayStandUnder (s : State) (t p : TypeId) : Prop := ∃ d e, s.Editable t d ∧ s.schema.get? p = some e ∧
  e.kind = d.kind ∧ p ≠ s.schema.metaTypes.thingRoot ∧ ¬ e.isImplicit

theorem checkSupertypeKind_eq_ok {l : String} {kind : Kind} {p : TypeId} {u : Unit} :
    s.checkSupertypeKind l kind p = .ok u ↔ ∃ e, s.schema.get? p = some e ∧ e.kind = kind ∧
      p ≠ s.schema.metaTypes.thingRoot ∧ ¬ e.isImplicit := by
  simp only [checkSupertypeKind, bind_eq_ok, Schema.require_eq_ok, if_throw_bind_eq_ok, notImplicit_eq_ok, not_or,
    ne_eq, not_not, and_assoc]

theorem checkSetSupertype_eq_ok {p : TypeId} {u : Unit} : s.checkSetSupertype t p = .ok u ↔ s.MayStandUnder t p ∧
    (s.schema.directSupertype? t = some p ∨ t ∉ s.schema.supertypes p ∧ ∃ old moved,
      s.schema.reparent t p = .ok (old, moved) ∧ ({ s with schema := moved } : State).checkConformance t = .ok ()) := by
  simp only [checkSetSupertype, bind_eq_ok, editableAny_eq_ok, checkSupertypeKind_eq_ok]
  constructor
  · rintro ⟨d, he, -, ⟨e, hp, hk, hroot, hplain⟩, hc⟩
    refine ⟨⟨d, e, he, hp, hk, hroot, hplain⟩, ?_⟩
    split at hc
    · rename_i hdirect
      exact Or.inl hdirect
    · simp only [if_throw_eq_ok, Schema.isSubtypeOf_iff, bind_eq_ok, Prod.exists] at hc
      exact Or.inr hc
  · rintro ⟨⟨d, e, he, hp, hk, hroot, hplain⟩, hc⟩
    refine ⟨d, he, (), ⟨e, hp, hk, hroot, hplain⟩, ?_⟩
    split
    · rfl
    · rename_i hdirect
      simp only [if_throw_eq_ok, Schema.isSubtypeOf_iff, bind_eq_ok, Prod.exists]
      exact hc.resolve_left hdirect

section Suits

variable {p : TypeId} {old : Option TypeId} (hap : s.MayStandUnder t p) (h : s.Sound first n)
  (hm : s.schema.reparent t p = .ok (old, schema'))

include hap h hm

theorem MayStandUnder.coherent : schema'.Coherent := by
  obtain ⟨d, e, he, hp, hk, hroot, -⟩ := hap
  exact Schema.reparent_coherent h.coherent hm he.2.1 he.1 hroot ⟨e, hp, hk⟩

/-- neither of the two has been made to record ownerships -/
theorem MayStandUnder.recorded : schema'.Recorded := by
  obtain ⟨d, e, he, hp, -, -, hplain⟩ := hap
  exact Schema.reparent_recorded h.coherent h.recorded hm
    (fun r hr hmade => he.2.2 (h.recorded.implicit_of_made hr hmade he.1))
    fun r hr hmade => hplain (h.recorded.implicit_of_made hr hmade hp)

end Suits

section Move

variable {p : TypeId} {old : Option TypeId} (hs : s.schema.Indexed) (hm : s.schema.reparent t p = .ok (old, schema'))

include hs hm

/-- elements that are not below the one that is moved keep their ancestors -/
theorem supertypes_unmoved {x : TypeId} (hx : t ∉ schema'.supertypes x) : s.schema.supertypes x = schema'.supertypes x :=
  (Schema.reparent_moves hs hm).supertypes_unmoved hs (Schema.reparent_indexed hm hs) hx

omit hs in
theorem declared_move (x : TypeId) : schema'.declaredDataType? x = s.schema.declaredDataType? x ∧
    schema'.declaredRegex? x = s.schema.declaredRegex? x := by
  simp only [Schema.declaredDataType?, Schema.declaredRegex?, Schema.get?_reparent hm, and_self]

/-- below the element that is moved, each type declares what it would inherit -/
theorem agreeing_move (ha : s.schema.Agreeing) (hf : ∀ x, t ∈ schema'.supertypes x →
    ({ s with schema := schema' } : State).dataTypeFault x = none) : schema'.Agreeing := by
  have hs' := Schema.reparent_indexed hm hs
  intro x
  induction x using hs'.supertype_induction with
  | _ x ih =>
    by_cases hx : t ∈ schema'.supertypes x
    · have habove : ∀ b v w, b ∈ schema'.supertypes x → schema'.declaredDataType? x = some v →
          schema'.declaredDataType? b = some w → v = w := by
        intro b v w hb hv hw
        rcases hs'.mem_supertypes_iff.1 hb with ⟨rfl, -⟩ | ⟨q, hq, hbq⟩
        · exact Option.some.inj (hv.symm.trans hw)
        · obtain ⟨u, hu⟩ := Schema.dataType?_isSome hbq hw
          obtain ⟨c, hc, hcu⟩ := Schema.dataType?_sound hu
          rw [← dataTypeFault_eq_none.1 (hf x hx) v q u hv hq hu]
          exact ih q hq c b u w hc hbq hcu hw
      intro a b v w hax hbx hv hw
      rcases hs'.mem_supertypes_iff.1 hax with ⟨rfl, -⟩ | ⟨q, hq, haq⟩
      · exact habove b v w hbx hv hw
      · rcases hs'.mem_supertypes_iff.1 hbx with ⟨rfl, -⟩ | ⟨q', hq', hbq⟩
        · exact (habove a w v hax hw hv).symm
        · obtain rfl := Option.some.inj (hq.symm.trans hq')
          exact ih q hq a b v w haq hbq hv hw
    · intro a b v w hax hbx hv hw
      rw [← supertypes_unmoved hs hm hx] at hax hbx
      rw [(declared_move hm _).1] at hv hw
      exact ha x a b v w hax hbx hv hw

end Move

section Moved

variable {p : TypeId} {old : Option TypeId} (h : s.Sound first n) (hm : s.schema.reparent t p = .ok (old, schema'))
  (hc : schema'.Coherent) (hconf : ({ s with schema := schema' } : State).checkConformance t = .ok ())

include hm in
theorem implicitForRelation?_move (x : TypeId) : schema'.implicitForRelation? x = s.schema.implicitForRelation? x := by
  obtain ⟨-, -, -, -, htr⟩ := Schema.tables_reparent hm
  rw [Schema.implicitForRelation?, htr]
  rfl

include h hc hconf in
/-- each instance below the element that is moved has been looked at -/
theorem faults_move {id : ThingId} {th : Thing} (hth : s.graph.get? id = some th) (ht : t ∈ schema'.supertypes th.type) :
    ({ s with schema := schema' } : State).bodyFault id th = none ∧
    ({ s with schema := schema' } : State).roleFault id th = none ∧
    ({ s with schema := schema' } : State).holdingFault id th = none :=
  thingFault_eq_none.1 ((checkConformance_eq_ok.1 hconf).2 (_, _)
    ((mem_instances (s := { s with schema := schema' }) hc.indexed h.indexed).2 ⟨hth, ht⟩))

include h hm hc hconf

theorem valued_move (hag : schema'.Agreeing) {id : ThingId} {b : Thing} {v : Value} (hb : s.graph.bare? id = some b)
    (hv : b.value? = some v) : schema'.dataType? b.type = some v.dataType := by
  by_cases ht : t ∈ schema'.supertypes b.type
  · obtain ⟨th, hth, rfl⟩ := Graph.get?_of_bare? hb
    rw [Thing.bare_type] at ht ⊢
    exact (bodyFault_value (faults_move h hc hconf hth ht).1 ((Thing.bare_value? th).symm.trans hv)).1
  · obtain ⟨x, hx, hxv⟩ := h.agreeing.dataType?_eq_some.1 (h.instances.valued id b v hb hv)
    rw [supertypes_unmoved h.coherent.indexed hm ht] at hx
    exact hag.dataType?_eq_some.2 ⟨x, hx, (declared_move hm x).1.trans hxv⟩

theorem matched_move {id : ThingId} {b : Thing} {v : Value} {text : String} (hb : s.graph.bare? id = some b)
    (hv : b.value? = some v) (htext : v.string? = some text) {x : TypeId} {q : Pattern}
    (hq : (x, q) ∈ schema'.patterns b.type) : q.isMatch text := by
  by_cases ht : t ∈ schema'.supertypes b.type
  · obtain ⟨th, hth, rfl⟩ := Graph.get?_of_bare? hb
    rw [Thing.bare_type] at ht hq
    exact (bodyFault_value (faults_move h hc hconf hth ht).1 ((Thing.bare_value? th).symm.trans hv)).2 text htext x q hq
  · obtain ⟨hx, hreg⟩ := Schema.mem_patterns.1 hq
    rw [← supertypes_unmoved h.coherent.indexed hm ht] at hx
    rw [(declared_move hm x).2] at hreg
    exact h.instances.matched id b v text hb hv htext x q (Schema.mem_patterns.2 ⟨hx, hreg⟩)

theorem related_move (hr : schema'.Recorded) {r p : ThingId} {b : Thing} {role : TypeId} (hb : s.graph.bare? r = some b)
    (hu : s.UserRelation b) (hp : s.graph.Plays r role p) : schema'.relatesRole b.type role := by
  by_cases ht : t ∈ schema'.supertypes b.type
  · obtain ⟨th, hth, rfl⟩ := Graph.get?_of_bare? hb
    rw [Thing.bare_type] at ht ⊢
    refine bodyFault_players (faults_move h hc hconf hth ht).1 (fun hi => ?_) ((Graph.plays_iff hth).1 hp)
    obtain ⟨q, hq⟩ := hr.isImplicitRelation_iff.1 hi
    have hnone := hu.2
    rw [Thing.bare_type, ← implicitForRelation?_move hm, hq] at hnone
    simp at hnone
  · obtain ⟨x, hx, hdecl⟩ := Schema.relatesRole_iff.1 (h.instances.related r b role p hb hu hp)
    rw [supertypes_unmoved h.coherent.indexed hm ht] at hx
    refine Schema.relatesRole_iff.2 ⟨x, hx, ?_⟩
    simpa only [Schema.DeclaresRelates, Schema.get?_reparent hm] using hdecl

theorem played_move {r p : ThingId} {b c : Thing} {role : TypeId} (hb : s.graph.bare? r = some b)
    (hu : s.UserRelation b) (hu' : ({ s with schema := schema' } : State).UserRelation b) (hp : s.graph.Plays r role p)
    (hcp : s.graph.bare? p = some c) : schema'.playsRole c.type role := by
  by_cases ht : t ∈ schema'.supertypes c.type
  · obtain ⟨th, hth, rfl⟩ := Graph.get?_of_bare? hcp
    rw [Thing.bare_type] at ht ⊢
    exact roleFault_eq_none.1 (faults_move h hc hconf hth ht).2.1 ⟨r, role⟩ ((Graph.mem_relationsOf h.indexed).2 hp)
      (edge?_isNone_of_user hb hu')
  · obtain ⟨x, hx, hdecl⟩ := Schema.playsRole_iff.1 (h.instances.played r b role p c hb hu hp hcp)
    rw [supertypes_unmoved h.coherent.indexed hm ht] at hx
    refine Schema.playsRole_iff.2 ⟨x, hx, ?_⟩
    simpa only [Schema.DeclaresPlays, Schema.get?_reparent hm] using hdecl

/-- an ownership has been looked at if either end is below the element that is moved -/
theorem mayHold_move {q : ImplicitOwnership} {r o a : ThingId} (hedge : s.Edge q r o a) :
    ({ s with schema := schema' } : State).MayHold o a := by
  have hrel : ∀ id b, s.graph.bare? id = some b →
      ({ s with schema := schema' } : State).schema.implicitForRelation? b.type = s.schema.implicitForRelation? b.type :=
    fun _ b _ => implicitForRelation?_move hm b.type
  have hg : ({ s with schema := schema' } : State).graph = s.graph := rfl
  obtain ⟨bo, ba, hbo, hba, hown⟩ := hedge.mayHold h.recorded h.instances
  obtain ⟨tho, htho, rfl⟩ := Graph.get?_of_bare? hbo
  obtain ⟨tha, htha, rfl⟩ := Graph.get?_of_bare? hba
  by_cases hto : t ∈ schema'.supertypes tho.type
  · refine holdingFault_eq_none.1 (faults_move h hc hconf htho hto).2.2 ⟨r, o, a⟩ (List.mem_append_left _ ?_)
    rw [ownershipsOf_congr hg hrel]
    exact (mem_ownershipsOf h.recorded h.indexed h.instances).2 ⟨rfl, q, hedge⟩
  by_cases hta : t ∈ schema'.supertypes tha.type
  · refine holdingFault_eq_none.1 (faults_move h hc hconf htha hta).2.2 ⟨r, o, a⟩ (List.mem_append_right _ ?_)
    rw [ownersOf_congr hg hrel]
    exact (mem_ownersOf h.recorded h.indexed h.instances).2 ⟨rfl, q, hedge⟩
  · rw [Thing.bare_type, Thing.bare_type] at hown
    obtain ⟨x, hx, c, hcx, hdecl⟩ := Schema.ownership?_isSome.1 hown
    rw [supertypes_unmoved h.coherent.indexed hm hto] at hx
    rw [supertypes_unmoved h.coherent.indexed hm hta] at hcx
    refine ⟨_, _, hbo, hba, ?_⟩
    rw [Thing.bare_type, Thing.bare_type]
    refine Schema.ownership?_isSome.2 ⟨x, hx, c, hcx, ?_⟩
    simpa only [Schema.DeclaresOwns, Schema.get?_reparent hm] using hdecl

end Moved

/-- **Another supertype.** All that inherits from the element has been looked at; the rest is as it was. -/
theorem Sound.reparent (h : s.Sound first n) {p : TypeId} {old : Option TypeId}
    (hm : s.schema.reparent t p = .ok (old, schema')) (hc : schema'.Coherent) (hr : schema'.Recorded)
    (hconf : ({ s with schema := schema' } : State).checkConformance t = .ok ()) :
    ({ s with schema := schema' } : State).Sound first n := by
  have hget := Schema.get?_reparent hm
  have hrel := implicitForRelation?_move hm
  have hag := agreeing_move h.coherent.indexed hm h.agreeing fun x hx =>
    (checkConformance_eq_ok.1 hconf).1 x (hc.indexed.mem_subtypes.2 hx)
  have huser : ∀ {b}, ({ s with schema := schema' } : State).UserRelation b → s.UserRelation b := by
    rintro b ⟨⟨d, hd⟩, hq⟩
    exact ⟨⟨d, (hget _).symm.trans hd⟩, (hrel _).symm.trans hq⟩
  refine ⟨hc, hr, hag, h.indexed, h.closed, ⟨?_, ?_, fun id b v hb hv => valued_move h hm hc hconf hag hb hv,
    fun id b v text hb hv htext x q hq => matched_move h hm hc hconf hb hv htext hq,
    fun r b role p hb hu hp => related_move h hm hc hconf hr hb (huser hu) hp,
    fun r b role p c hb hu hp hcp => played_move h hm hc hconf hb (huser hu) hu hp hcp, ?_⟩, ?_, h.issuedThings⟩
  · intro id b hb
    simpa only [Schema.HasKind, hget] using h.instances.typed id b hb
  · intro id b d hb hd
    exact h.instances.concrete id b d hb ((hget _).symm.trans hd)
  · intro r b q hb hq
    obtain ⟨o, a, hedge, -, hplays⟩ := h.instances.edge hb ((hrel _).symm.trans hq)
    exact ⟨o, a, mayHold_move h hm hc hconf hedge, hplays⟩
  · intro x d hd
    exact h.issuedTypes x d ((hget x).symm.trans hd)

/-! ## An element deleted -/

theorem checkDeleteType_eq_ok {u : Unit} : s.checkDeleteType t = .ok u ↔ ∃ d, s.Editable t d ∧
    s.schema.directSubtypes t = [] ∧ ¬ 0 < s.graph.countOfType t ∧ (d.kind = .role → s.filledRole t = none) := by
  simp only [checkDeleteType, bind_eq_ok, editableAny_eq_ok, if_throw_bind_eq_ok, Bool.not_eq_true', Bool.not_eq_false,
    List.isEmpty_iff]
  refine exists_congr fun d => and_congr_right fun _ => and_congr_right fun _ => and_congr_right fun _ => ?_
  split
  · rename_i hk
    cases hf : s.filledRole t with
    | none => simp [hk, pure_eq_ok]
    | some r => simp [hk, throw_ne_ok]
  · rename_i hk
    simp [hk, pure_eq_ok]

/-- a role that nobody fills, as the rules see it, is filled in no relation of a user -/
theorem not_plays_of_filledRole {r p : ThingId} {b : Thing} (hs : s.schema.Indexed) (hg : s.graph.Indexed)
    (hi : s.Instances) (hf : s.filledRole t = none) (hb : s.graph.bare? r = some b) (hu : s.UserRelation b) :
    ¬ s.graph.Plays r t p := by
  intro hp
  obtain ⟨a, ha, d, hd, hrel⟩ := Schema.relatesRole_iff.1 (hi.related r b t p hb hu hp)
  obtain ⟨th, hth, rfl⟩ := Graph.get?_of_bare? hb
  rw [Thing.bare_type] at ha
  have hmem : p ∈ th.playersOf t := Thing.mem_playersOf.2 ((Graph.plays_iff hth).1 hp)
  simp only [filledRole, Option.map_eq_none_iff, List.findSome?_eq_none_iff, List.mem_filter, List.find?_eq_none] at hf
  have := hf (a, d) ⟨ExtTreeMap.mem_toList_iff_getElem?_eq_some.2 hd, hrel⟩ (r, th) ((mem_instances hs hg).2 ⟨hth, ha⟩)
  simp only [Bool.not_eq_true', Bool.not_eq_false, List.isEmpty_iff] at this
  simp [this] at hmem

section Without

variable {d : TypeDef} (hw : s.schema.Without schema' t) (h : s.Sound first n) (hs' : schema'.Indexed)
  (hleaf : ∀ x, s.schema.directSupertype? x ≠ some t)

include h hleaf in
/-- what goes with an element stands above nothing that stays -/
theorem not_gone_above {x a : TypeId} (hx : ¬ s.schema.Gone t x) (ha : a ∈ s.schema.supertypes x) :
    ¬ s.schema.Gone t a := by
  intro hcase
  rcases hcase with rfl | ⟨r, hr, hm⟩
  · exact hx (Or.inl (h.coherent.indexed.eq_of_leaf hleaf ha))
  · obtain ⟨hrec, rfl⟩ := h.recorded.implicitForOwned?.1 hr
    obtain ⟨d, hb⟩ := h.recorded.backed r hrec
    exact hx (Or.inr ⟨r, hr, h.coherent.indexed.eq_of_leaf (fun y => hb.leaf y a hm) ha ▸ hm⟩)

include hw h hs' hleaf in
theorem supertypes_without {x : TypeId} (hx : ¬ s.schema.Gone t x) : schema'.supertypes x = s.schema.supertypes x := by
  have hs := h.coherent.indexed
  cases hd : s.schema.get? x with
  | none => rw [hs.supertypes_of_none hd, hs'.supertypes_of_none (by rw [hw.kept x hx, hd]; rfl)]
  | some d =>
    refine hs.supertypes_congr hs' ?_ ⟨d, hd⟩
    intro a ha
    obtain ⟨-, e, -, he, -⟩ := hs.defined_of_mem ha
    have hna := not_gone_above h hleaf hx ha
    exact ⟨⟨_, hw.get?.2 ⟨hna, e, he, rfl⟩⟩, hw.parent a hna⟩

include hw in
theorem declared_without {x : TypeId} (hx : ¬ s.schema.Gone t x) :
    schema'.declaredDataType? x = s.schema.declaredDataType? x ∧
      schema'.declaredRegex? x = s.schema.declaredRegex? x := by
  simp only [Schema.declaredDataType?, Schema.declaredRegex?, hw.kept x hx]
  cases s.schema.get? x <;> simp

include hw h hs' hleaf in
theorem agreeing_without : schema'.Agreeing := by
  intro x a b v w ha hb hv hw'
  have hx : ¬ s.schema.Gone t x := by
    intro hx
    rw [hs'.supertypes_of_none (hw.gone x hx)] at ha
    simp at ha
  rw [supertypes_without hw h hs' hleaf hx] at ha hb
  rw [(declared_without hw (not_gone_above h hleaf hx ha)).1] at hv
  rw [(declared_without hw (not_gone_above h hleaf hx hb)).1] at hw'
  exact h.agreeing x a b v w ha hb hv hw'

include h in
/-- the only instances that can lose their type record ownerships -/
theorem gone_of_instance (hcount : ∀ id b, s.graph.bare? id = some b → b.type ≠ t) {id : ThingId} {b : Thing}
    (hb : s.graph.bare? id = some b) (hx : s.schema.Gone t b.type) :
    b.isRelation ∧ ∃ r, s.schema.implicitForOwned? t = some r ∧ b.type = r.relation := by
  rcases hx with hx | ⟨r, hr, hm⟩
  · exact absurd hx (hcount id b hb)
  · obtain ⟨hrec, -⟩ := h.recorded.implicitForOwned?.1 hr
    obtain ⟨d, hback⟩ := h.recorded.backed r hrec
    have hkind : ∀ {x e}, b.type = x → s.schema.get? x = some e → b.kind = e.kind := by
      rintro x e rfl he
      rcases h.instances.typed id b hb with ⟨e', he', hk⟩ | ⟨hn, -⟩
      · rw [Option.some.inj (he.symm.trans he'), hk]
      · rw [he] at hn
        simp at hn
    rcases hm with hm | hm | hm
    · exact ⟨Thing.isRelation_iff_kind.2 (hkind hm hback.relation), r, hr, hm⟩
    · exact absurd (hkind hm hback.ownerRole) (Thing.kind_ne_role b)
    · exact absurd (hkind hm hback.valueRole) (Thing.kind_ne_role b)

include hw h in
/-- a relation type of a user that stays was one before -/
theorem userRelation_without {b : Thing} (hu : ({ s with schema := schema' } : State).UserRelation b) :
    s.UserRelation b ∧ ¬ s.schema.Gone t b.type := by
  obtain ⟨⟨d, hd⟩, hq⟩ := hu
  obtain ⟨hx, e, he, -⟩ := hw.get?.1 hd
  refine ⟨⟨⟨e, he⟩, Option.eq_none_iff_forall_ne_some.2 fun q hq' => ?_⟩, hx⟩
  by_cases ho : q.owned = t
  · obtain ⟨hrec, hrel⟩ := (h.recorded.byRelation _ _).1 hq'
    exact hx (Or.inr ⟨q, ho ▸ hrec, Or.inl hrel.symm⟩)
  · have := (hw.byRelation b.type q).2 ⟨hq', ho⟩
    rw [hq] at this
    simp at this

include h in
/-- a role that relations of users have players in is not the one that goes -/
theorem ne_of_filled (hfilled : ∀ d, s.schema.get? t = some d → d.kind = .role → s.filledRole t = none) {r p : ThingId}
    {b : Thing} {role : TypeId} (hb : s.graph.bare? r = some b) (hu : s.UserRelation b) (hp : s.graph.Plays r role p) :
    role ≠ t := by
  rintro rfl
  obtain ⟨a, -, e, he, hrel⟩ := Schema.relatesRole_iff.1 (h.instances.related r b role p hb hu hp)
  obtain ⟨d, hd, hk⟩ := (h.coherent.refs a e he).relates role hrel
  exact not_plays_of_filledRole h.coherent.indexed h.indexed h.instances (hfilled d hd hk) hb hu hp

include h in
/-- a type that may play or own something, whoever says so, stays with its instances -/
theorem not_gone_of_declares (hcount : ∀ id b, s.graph.bare? id = some b → b.type ≠ t) {id : ThingId} {b : Thing}
    {x y : TypeId} (hb : s.graph.bare? id = some b) (hx : x ∈ s.schema.supertypes b.type)
    (hdecl : s.schema.DeclaresPlays x y ∨ s.schema.DeclaresOwns x y) : ¬ s.schema.Gone t b.type := by
  intro hcase
  rcases hcase with hg | ⟨q, hq, hm⟩
  · exact hcount id b hb hg
  · obtain ⟨hrec, -⟩ := h.recorded.implicitForOwned?.1 hq
    obtain ⟨hplays, howns⟩ := h.recorded.made_declares_nothing h.coherent hrec hm hx y
    exact hdecl.elim hplays howns

include h in
/-- an attribute type stays with its instances -/
theorem not_gone_of_attribute (hcount : ∀ id b, s.graph.bare? id = some b → b.type ≠ t) {id : ThingId} {b : Thing}
    {x : TypeId} (hb : s.graph.bare? id = some b) (hx : x ∈ s.schema.supertypes b.type)
    (hk : s.schema.HasKind x .attribute) : ¬ s.schema.Gone t b.type := by
  intro hcase
  rcases hcase with hg | ⟨q, hq, hm⟩
  · exact hcount id b hb hg
  · exact h.recorded.made_not_attribute h.coherent (h.recorded.implicitForOwned?.1 hq).1 hm hx hk

include hw h hs' hleaf in
theorem played_without (hcount : ∀ id b, s.graph.bare? id = some b → b.type ≠ t) {r p : ThingId} {b c : Thing}
    {role : TypeId} (hb : s.graph.bare? r = some b) (hu : s.UserRelation b) (hp : s.graph.Plays r role p)
    (hcp : s.graph.bare? p = some c) (hne : role ≠ t) : schema'.playsRole c.type role := by
  obtain ⟨a, ha, hdecl⟩ := Schema.playsRole_iff.1 (h.instances.played r b role p c hb hu hp hcp)
  have hx := not_gone_of_declares h hcount hcp ha (Or.inl hdecl)
  have hdecl' : schema'.DeclaresPlays a role := by
    refine (hw.declaresPlays a role).2 ⟨not_gone_above h hleaf hx ha, hdecl, hne, ?_⟩
    rintro ⟨q, hq, hrec⟩
    exact h.not_plays_record (h.recorded.implicitForOwned?.1 hq).1 hrec hb hu hp
  rw [← supertypes_without hw h hs' hleaf hx] at ha
  exact Schema.playsRole_iff.2 ⟨a, ha, hdecl'⟩

include hw h hs' hleaf in
/-- the types of an owner and of what it holds stay, with the declaration that lets the one hold the other -/
theorem mayHold_without (hcount : ∀ id b, s.graph.bare? id = some b → b.type ≠ t) {o a : ThingId}
    (hmay : s.MayHold o a) : ({ s with schema := schema' } : State).MayHold o a := by
  obtain ⟨bo, ba, hbo, hba, hown⟩ := hmay
  obtain ⟨x, hx, c, hc, hdecl⟩ := Schema.ownership?_isSome.1 hown
  have hgo := not_gone_of_declares h hcount hbo hx (Or.inr hdecl)
  have hkind : s.schema.HasKind c .attribute := by
    obtain ⟨e, he, howns⟩ := hdecl
    exact (h.coherent.refs x e he).owns c howns
  have hga := not_gone_of_attribute h hcount hba hc hkind
  have hdecl' : schema'.DeclaresOwns x c := by
    refine (hw.declaresOwns x c).2 ⟨not_gone_above h hleaf hgo hx, hdecl, ?_⟩
    exact fun hct => not_gone_above h hleaf hga hc (Or.inl hct)
  rw [← supertypes_without hw h hs' hleaf hgo] at hx
  rw [← supertypes_without hw h hs' hleaf hga] at hc
  exact ⟨bo, ba, hbo, hba, Schema.ownership?_isSome.2 ⟨x, hx, c, hc, hdecl'⟩⟩

include h in
theorem not_gone_of_value (hcount : ∀ id b, s.graph.bare? id = some b → b.type ≠ t) {id : ThingId} {b : Thing}
    {v : Value} (hb : s.graph.bare? id = some b) (hv : b.value? = some v) : ¬ s.schema.Gone t b.type := by
  intro hx
  have hk := Thing.isRelation_iff_kind.1 (gone_of_instance h hcount hb hx).1
  rw [Thing.kind_of_value? hv] at hk
  cases hk

include hw h hs' hleaf in
/-- each instance that keeps its type is as that wants it -/
theorem Instances.without (hcount : ∀ id b, s.graph.bare? id = some b → b.type ≠ t)
    (hfilled : ∀ d, s.schema.get? t = some d → d.kind = .role → s.filledRole t = none) :
    ({ s with schema := schema' } : State).Instances := by
  have hsup : ∀ {x}, ¬ s.schema.Gone t x → schema'.supertypes x = s.schema.supertypes x :=
    fun hx => supertypes_without hw h hs' hleaf hx
  have habove : ∀ {x a}, ¬ s.schema.Gone t x → a ∈ s.schema.supertypes x → ¬ s.schema.Gone t a :=
    fun hx ha => not_gone_above h hleaf hx ha
  refine ⟨?_, ?_, ?_, ?_, ?_, ?_, ?_⟩
  · intro id b hb
    by_cases hx : s.schema.Gone t b.type
    · exact Or.inr ⟨hw.gone _ hx, (gone_of_instance h hcount hb hx).1⟩
    · rcases h.instances.typed id b hb with ⟨d, hd, hk⟩ | ⟨hn, hrel⟩
      · exact Or.inl ⟨_, hw.get?.2 ⟨hx, d, hd, rfl⟩, Schema.kind_withdraw.trans hk⟩
      · exact Or.inr ⟨(hw.kept _ hx).trans (by rw [hn]; rfl), hrel⟩
  · intro id b d hb hd
    obtain ⟨-, e, he, rfl⟩ := hw.get?.1 hd
    rw [Schema.isAbstract_withdraw]
    exact h.instances.concrete id b e hb he
  · intro id b v hb hv
    have hx := not_gone_of_value h hcount hb hv
    obtain ⟨a, ha, hav⟩ := h.agreeing.dataType?_eq_some.1 (h.instances.valued id b v hb hv)
    refine (agreeing_without hw h hs' hleaf).dataType?_eq_some.2 ⟨a, (hsup hx).symm ▸ ha, ?_⟩
    rw [(declared_without hw (habove hx ha)).1, hav]
  · intro id b v text hb hv htext a p hp
    have hx := not_gone_of_value h hcount hb hv
    obtain ⟨ha, hreg⟩ := Schema.mem_patterns.1 hp
    rw [hsup hx] at ha
    rw [(declared_without hw (habove hx ha)).2] at hreg
    exact h.instances.matched id b v text hb hv htext a p (Schema.mem_patterns.2 ⟨ha, hreg⟩)
  · intro r b role p hb hu hp
    obtain ⟨hu, hx⟩ := userRelation_without hw h hu
    obtain ⟨a, ha, hdecl⟩ := Schema.relatesRole_iff.1 (h.instances.related r b role p hb hu hp)
    exact Schema.relatesRole_iff.2 ⟨a, (hsup hx).symm ▸ ha,
      (hw.declaresRelates a role).2 ⟨habove hx ha, hdecl, ne_of_filled h hfilled hb hu hp⟩⟩
  · intro r b role p c hb hu hp hcp
    obtain ⟨hu, -⟩ := userRelation_without hw h hu
    exact played_without hw h hs' hleaf hcount hb hu hp hcp (ne_of_filled h hfilled hb hu hp)
  · intro r b q hb hq
    obtain ⟨hq, -⟩ := (hw.byRelation _ _).1 hq
    obtain ⟨o, a, -, hmay, hplays⟩ := h.instances.edge hb hq
    exact ⟨o, a, mayHold_without hw h hs' hleaf hcount hmay, hplays⟩

end Without

/-- **Deleting.** Nothing that stays relies on what goes; a relation that records an ownership can lose its type. -/
theorem Sound.without (h : s.Sound first n) (hw : s.schema.Without schema' t) (hc : schema'.Coherent)
    (hr : schema'.Recorded) (hleaf : ∀ x, s.schema.directSupertype? x ≠ some t)
    (hcount : ∀ id b, s.graph.bare? id = some b → b.type ≠ t)
    (hfilled : ∀ d, s.schema.get? t = some d → d.kind = .role → s.filledRole t = none) :
    ({ s with schema := schema' } : State).Sound first n where
  coherent := hc
  recorded := hr
  agreeing := agreeing_without hw h hc.indexed hleaf
  indexed := h.indexed
  closed := h.closed
  instances := .without hw h hc.indexed hleaf hcount hfilled
  issuedTypes x d hd := by
    obtain ⟨-, e, he, -⟩ := hw.get?.1 hd
    exact h.issuedTypes x e he
  issuedThings := h.issuedThings

end State

end ConceptGraph
