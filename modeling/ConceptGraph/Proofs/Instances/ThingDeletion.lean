/-
Instances that are deleted, and what goes with them.

- `Graph.Lacks`: a graph without some instances, which play in nothing that is left either.
- `Sound.record_plays_nowhere`: the relation that records an ownership plays no role, in whatever relation.
- `ThingDeleted`: the instance is gone, and so are the relations that record what it held or who held it. Relations that
  are left have lost it as a player, and all else is as it was. No index mentions what is gone.
- `Session.deleted_with_ownerships`: so it is with every deletion in every transaction that a session gets to.
-/
import ConceptGraph.Proofs.Instances.Strays
import ConceptGraph.Proofs.Instances.TightIndexes

namespace ConceptGraph

open Std

namespace Thing

variable {th th' : Thing} {x : ThingId}

/-- the instance without a player, whatever role this one had -/
def withoutPlayer (x : ThingId) (th : Thing) : Thing :=
  match th.body with
  | .relation ps => { th with body := .relation (ps.filter fun rp => rp.player != x) }
  | _ => th

theorem bare_withoutPlayer : (th.withoutPlayer x).bare = th.bare := by
  obtain ⟨t, body⟩ := th
  cases body <;> rfl

theorem mem_withoutPlayer {rp : RolePlayer} :
    rp ∈ (th.withoutPlayer x).rolePlayers ↔ rp ∈ th.rolePlayers ∧ rp.player ≠ x := by
  obtain ⟨t, body⟩ := th
  cases body <;> simp [withoutPlayer, rolePlayers, rolePlayers?, ExtTreeSet.mem_filter]

/-- an instance is its type, its value and its players -/
theorem eq_of_bare (hb : th'.bare = th.bare) (hp : ∀ rp, rp ∈ th'.rolePlayers ↔ rp ∈ th.rolePlayers) : th' = th := by
  obtain ⟨t, body⟩ := th
  obtain ⟨t', body'⟩ := th'
  cases body with
  | relation ps =>
    cases body' with
    | relation ps' =>
      obtain rfl : t' = t := congrArg Thing.type hb
      have : ps' = ps := ExtTreeSet.ext_mem fun rp => by simpa [rolePlayers, rolePlayers?] using hp rp
      rw [this]
    | _ => cases hb
  | _ => cases body' <;> first | exact hb | cases hb

theorem withoutPlayer_eq_self (h : ∀ rp ∈ th.rolePlayers, rp.player ≠ x) : th.withoutPlayer x = th :=
  eq_of_bare bare_withoutPlayer fun rp => mem_withoutPlayer.trans (and_iff_left_of_imp (h rp))

end Thing

namespace Graph

variable {g g' g'' : Graph} {gone : ThingId → Prop} {id x : ThingId} {th : Thing}

/-- the second graph is the first one without some instances, as such and as players -/
structure Lacks (g g' : Graph) (gone : ThingId → Prop) : Prop where
  indexed : g'.Indexed
  closed : g'.Closed
  lost : ∀ y, gone y → g'.bare? y = none
  kept : ∀ y, ¬ gone y → g'.bare? y = g.bare? y
  plays : ∀ r role p, g'.Plays r role p ↔ g.Plays r role p ∧ ¬ gone r ∧ ¬ gone p

theorem Lacks.refl (hi : g.Indexed) (hc : g.Closed) : g.Lacks g fun _ => False :=
  ⟨hi, hc, fun _ => False.elim, fun _ _ => rfl, by simp⟩

theorem Lacks.congr (h : g.Lacks g' gone) {gone' : ThingId → Prop} (hg : ∀ y, gone' y ↔ gone y) : g.Lacks g' gone' := by
  obtain rfl : gone' = gone := funext fun y => propext (hg y)
  exact h

/-- one instance more is taken out -/
theorem Lacks.remove (h : g.Lacks g' gone) (hrm : g'.remove id = .ok (th, g'')) :
    g.Lacks g'' fun y => gone y ∨ y = id := by
  obtain ⟨hi, hc, hbare, hplays⟩ := remove_spec h.indexed h.closed hrm
  refine ⟨hi, hc, fun y hy => ?_, fun y hy => ?_, fun r role p => ?_⟩
  · rw [hbare]
    split
    · rfl
    · exact h.lost y (hy.resolve_right ‹_›)
  · rw [not_or] at hy
    rw [hbare, if_neg hy.2, h.kept y hy.1]
  · rw [hplays, h.plays]
    tauto

/-- what is left is as it was, but for players that are gone -/
theorem Lacks.get?_kept (h : g.Lacks g' gone) {y : ThingId} (hy : ¬ gone y)
    (hgone : ∀ role p, g.Plays y role p → (gone p ↔ p = x)) : g'.get? y = (g.get? y).map (Thing.withoutPlayer x) := by
  have hb := h.kept y hy
  cases hth : g.get? y with
  | none =>
    rw [bare?, bare?, hth] at hb
    exact Option.map_eq_none_iff.1 hb
  | some th =>
    obtain ⟨th', hth', hbare⟩ := get?_of_bare? (hb.trans (bare?_of_get? hth))
    rw [hth', Option.map_some]
    refine congrArg some (Thing.eq_of_bare (hbare.trans Thing.bare_withoutPlayer.symm) ?_)
    rintro ⟨role, p⟩
    rw [Thing.mem_withoutPlayer, ← plays_iff hth', ← plays_iff hth, h.plays]
    exact and_congr_right fun hp => by rw [hgone role p hp, and_iff_right hy]

end Graph

namespace State

variable {s s' : State} {graph' : Graph} {first : UInt64} {n : Nat} {x y r p : ThingId} {role : TypeId}

/-- the relation records that the instance holds something, or that something holds it -/
def OwnershipOf (s : State) (x r : ThingId) : Prop := ∃ q o a, s.Edge q r o a ∧ (o = x ∨ a = x)

/-- what is left of a state when an instance is deleted -/
structure ThingDeleted (s s' : State) (x : ThingId) : Prop where
  schema : s'.schema = s.schema
  gone : ∀ y, y = x ∨ s.OwnershipOf x y → s'.graph.get? y = none
  kept : ∀ y, ¬ (y = x ∨ s.OwnershipOf x y) → s'.graph.get? y = (s.graph.get? y).map (Thing.withoutPlayer x)
  unchanged : ∀ y th, ¬ (y = x ∨ s.OwnershipOf x y) → s.graph.get? y = some th →
    (∀ rp ∈ th.rolePlayers, rp.player ≠ x) → s'.graph.get? y = some th
  edges : ∀ q r o a, s'.Edge q r o a ↔ s.Edge q r o a ∧ o ≠ x ∧ a ≠ x
  byType : ∀ t y, y ∈ s'.graph.byType.get t → s'.graph.contains y
  byValue : ∀ (k : AttributeKey) y, s'.graph.byValue[k]? = some y → s'.graph.contains y
  byPlayer : ∀ p, s'.graph.byPlayer.contains p → s'.graph.contains p
  byRelation : ∀ p m, m ∈ s'.graph.byPlayer.get p → s'.graph.contains m.relation

/-- the relation that records an ownership has no place in any relation -/
theorem Sound.record_plays_nowhere {c : Thing} {q : ImplicitOwnership} (h : s.Sound first n)
    (hst : s.StraysApart first n) (hc : s.graph.bare? p = some c) (hq : s.schema.implicitForRelation? c.type = some q) :
    ¬ s.graph.Plays r role p := by
  intro hp
  have hnot : ¬ s.schema.implicitForRelation? c.type = none := by simp [hq]
  obtain ⟨⟨b, hb⟩, -⟩ := h.ends_stored hp
  cases hd : s.schema.get? b.type with
  | none => exact hnot (hst.players r role p c ⟨b, hb, hd⟩ hp hc)
  | some d =>
    cases hq' : s.schema.implicitForRelation? b.type with
    | some q' => exact hnot ((h.record_players hb hq' hp).2 c hc)
    | none =>
      -- a user's relation has players of types that may play in it
      obtain ⟨a, ha, hdecl⟩ := Schema.playsRole_iff.1 (h.instances.played r b role p c hb ⟨⟨d, hd⟩, hq'⟩ hp hc)
      obtain ⟨hrec, hrel⟩ := (h.recorded.byRelation _ q).1 hq
      exact (h.recorded.made_declares_nothing h.coherent hrec (Or.inl hrel.symm) ha role).1 hdecl

theorem OwnershipOf.record (h : s.OwnershipOf x r) :
    ∃ b q, s.graph.bare? r = some b ∧ s.schema.implicitForRelation? b.type = some q := by
  obtain ⟨q, o, a, hedge, -⟩ := h
  obtain ⟨b, hb, hq⟩ := hedge.relation
  exact ⟨b, q, hb, hq⟩

section Deleted

variable (h : s.Sound first n) (hl : s.graph.Lacks graph' fun y => y = x ∨ s.OwnershipOf x y)

include h hl

/-- the ownerships that are left are those without the instance that is gone -/
theorem edge_lacks (hx : ∀ q o a, ¬ s.Edge q x o a) (q : ImplicitOwnership) (r o a : ThingId) :
    ({ s with graph := graph' } : State).Edge q r o a ↔ s.Edge q r o a ∧ o ≠ x ∧ a ≠ x := by
  constructor
  · rintro ⟨⟨b, hb, hq⟩, ho, ha⟩
    obtain ⟨ho, hr, hox⟩ := (hl.plays _ _ _).1 ho
    obtain ⟨ha, -, hax⟩ := (hl.plays _ _ _).1 ha
    exact ⟨⟨⟨b, (hl.kept r hr).symm.trans hb, hq⟩, ho, ha⟩, fun hx => hox (Or.inl hx), fun hx => hax (Or.inl hx)⟩
  · rintro ⟨hedge, hox, hax⟩
    have hr : ¬ (r = x ∨ s.OwnershipOf x r) := by
      rintro (rfl | ⟨q', o', a', hedge', hend⟩)
      · exact hx q o a hedge
      · obtain ⟨-, rfl, rfl⟩ := hedge.ends_unique h.recorded h.instances hedge'
        exact hend.elim hox hax
    have hend : ∀ {y}, y = o ∨ y = a → ¬ s.OwnershipOf x y := by
      rintro y hy ⟨q', o', a', hedge', -⟩
      obtain ⟨ho, ha⟩ := hedge'.apart h hedge
      exact hy.elim (fun he => ho he.symm) fun he => ha he.symm
    obtain ⟨b, hb, hq⟩ := hedge.relation
    exact ⟨⟨b, (hl.kept r hr).trans hb, hq⟩,
      (hl.plays _ _ _).2 ⟨hedge.owner, hr, fun hy => hy.elim hox (hend (Or.inl rfl))⟩,
      (hl.plays _ _ _).2 ⟨hedge.held, hr, fun hy => hy.elim hax (hend (Or.inr rfl))⟩⟩

/-- **What is left** when an instance has been taken out with its ownerships -/
theorem thingDeleted_of_lacks (hst : s.StraysApart first n) (hx : ∀ q o a, ¬ s.Edge q x o a)
    (htight : graph'.byPlayer.Tight) : s.ThingDeleted { s with graph := graph' } x := by
  have hgone : ∀ {y} role p, s.graph.Plays y role p → (p = x ∨ s.OwnershipOf x p ↔ p = x) := by
    intro y role p hp
    refine or_iff_left fun ho => ?_
    obtain ⟨b, q, hb, hq⟩ := ho.record
    exact h.record_plays_nowhere hst hb hq hp
  have hkept : ∀ y, ¬ (y = x ∨ s.OwnershipOf x y) →
      graph'.get? y = (s.graph.get? y).map (Thing.withoutPlayer x) := fun y hy => hl.get?_kept hy hgone
  have hplays : ∀ p m, m ∈ graph'.byPlayer.get p → graph'.Plays m.relation m.role p :=
    fun p m hm => (hl.indexed.byPlayer p m).1 hm
  refine ⟨rfl, fun y hy => Option.map_eq_none_iff.1 (hl.lost y hy), hkept, fun y th hy hth hno => ?_,
    edge_lacks h hl hx, fun t y hy => ?_, fun k y hy => ?_, fun p hp => ?_, fun p m hm => ?_⟩
  · rw [hkept y hy, hth, Option.map_some, Thing.withoutPlayer_eq_self hno]
  · obtain ⟨b, hb, -⟩ := (hl.indexed.byType t y).1 hy
    exact Graph.contains_iff_bare?.2 ⟨b, hb⟩
  · obtain ⟨b, -, hb, -⟩ := (hl.indexed.byValue k.type k.value y).1 hy
    exact Graph.contains_iff_bare?.2 ⟨b, hb⟩
  · obtain ⟨m, hm⟩ := htight.contains_iff.1 hp
    exact hl.closed _ _ _ (hplays p m hm)
  · obtain ⟨b, hb, -⟩ := (hplays p m hm).relation
    exact Graph.contains_iff_bare?.2 ⟨b, hb⟩

end Deleted

end State

namespace Transaction

open State

variable {first : UInt64} {n : Nat} {t : Transaction} {g : Graph} {gone : ThingId → Prop} {x : ThingId}

/-- the relations of the edges are taken out, if that is not refused halfway -/
theorem removeThings_lack (es : List OwnershipEdge) (h : g.Lacks t.working.graph gone) :
    Ensures (es.forM fun e => removeThing e.relation) t fun _ t' => t'.working.schema = t.working.schema ∧
      g.Lacks t'.working.graph fun y => gone y ∨ y ∈ es.map OwnershipEdge.relation := by
  induction es generalizing t gone with
  | nil => exact .pure ⟨rfl, h.congr (by simp)⟩
  | cons e es ih =>
    refine .bind (.editGraph fun th graph' hrm => .pure ((ih (h.remove hrm)).weaken fun _ t' ht' => ?_))
    exact ⟨ht'.1, ht'.2.congr fun y => by rw [List.map_cons, List.mem_cons, or_assoc]⟩

theorem deleteThing_lacks (h : t.Sound first n) (x : ThingId) : Ensures (deleteThing x) t fun _ t' =>
    t'.working.schema = t.working.schema ∧ (∀ q o a, ¬ t.working.Edge q x o a) ∧
      t.working.graph.Lacks t'.working.graph fun y => y = x ∨ t.working.OwnershipOf x y := by
  refine .ask fun _ hc => .look (.bind ?_)
  obtain ⟨th, hth, hplain⟩ := checkDeleteThing_eq_ok.1 hc
  rw [h.working.recorded.isImplicitRelation_iff] at hplain
  obtain ⟨hedges, hfound⟩ := mem_edges h.working x
  have hmem : ∀ y, y ∈ (t.working.ownershipsOf x ++ t.working.ownersOf x).map OwnershipEdge.relation ↔
      t.working.OwnershipOf x y := by
    refine fun y => ⟨fun hy => ?_, fun ⟨q, o, a, hedge, hend⟩ => hfound q y o a hedge hend⟩
    obtain ⟨e, he, rfl⟩ := List.mem_map.1 hy
    exact hedges e he
  refine (removeThings_lack _ (.refl h.working.indexed h.working.closed)).weaken fun _ t₁ ⟨hschema, hl⟩ => ?_
  refine .bind (.editGraph fun th' graph' hrm => .pure (.record_last ⟨hschema, fun q o a => not_edge_of_plain hth hplain, ?_⟩))
  exact (hl.remove hrm).congr fun y => by rw [← hmem, false_or, or_comm]

theorem perform_deleteThing {r : Reply} (h : t.Sound first n) (hst : t.working.StraysApart first n)
    (htight : t.working.graph.byPlayer.Tight) (hok : (t.perform (.deleteThing x)).1 = .ok r) :
    t.working.ThingDeleted (t.perform (.deleteThing x)).2.working x := by
  have h' : Ensures (Operation.deleteThing x).perform t fun _ t' => t'.working.schema = t.working.schema ∧
      (∀ q o a, ¬ t.working.Edge q x o a) ∧
        t.working.graph.Lacks t'.working.graph fun y => y = x ∨ t.working.OwnershipOf x y :=
    .map (deleteThing_lacks h x)
  obtain ⟨hschema, hx, hl⟩ := h'.of_ok hok
  have hkeeps : Preserves (fun g => g.byPlayer.Tight) (Operation.deleteThing x).perform :=
    preserves_perform Graph.tight_graphInvariant rfl
  have htight' := hkeeps t htight
  have hdel := thingDeleted_of_lacks h.working hl hst hx htight'
  rwa [← hschema] at hdel

end Transaction

namespace Session

open State Transaction

variable {config : SessionConfig} {ids : Option IdSource} {journal : Option Journal} {s : Session} {es : List Event}
  {t : Transaction} {x : ThingId} {r : Reply}

/-- **An instance is deleted** with its ownerships, and nothing else is. -/
theorem deleted_with_ownerships (hs : start config ids journal = .ok s) (hfit : s.issued es < 2 ^ 64)
    (hw : (s.run es).writer = some t) (hok : (t.perform (.deleteThing x)).1 = .ok r) :
    t.working.ThingDeleted (t.perform (.deleteThing x)).2.working x :=
  perform_deleteThing ((run_sound hs hfit (List.prefix_refl _)).writer hw)
    ((run_straysApart hs hfit).writer t hw).working ((run_tight hs hfit).writer t hw).working hok

/-- a worker with a name and a job -/
def namedWorker : List Event :=
  [.begin, .perform (.putEntityType "person"), .perform (.putAttributeType "name" (some .string)),
    .perform (.has ⟨6⟩ ⟨7⟩), .perform (.putRelationType "job"), .perform (.putRole "worker"),
    .perform (.relates ⟨11⟩ ⟨12⟩), .perform (.plays ⟨6⟩ ⟨12⟩), .perform (.createEntity ⟨6⟩),
    .perform (.putAttribute ⟨7⟩ (.string "x")), .perform (.setHas ⟨13⟩ ⟨14⟩), .perform (.createRelation ⟨11⟩),
    .perform (.addRolePlayer ⟨16⟩ ⟨12⟩ ⟨13⟩)]

set_option maxRecDepth 10000 in
/-- the name and the job stay, without the worker -/
theorem namedWorker_deleted : blank.issued namedWorker < 2 ^ 64 ∧ ∃ t, (blank.run namedWorker).writer = some t ∧
    t.working.OwnershipOf ⟨13⟩ ⟨15⟩ ∧ (t.perform (.deleteThing ⟨13⟩)).1 = .ok .done ∧
      t.working.ThingDeleted (t.perform (.deleteThing ⟨13⟩)).2.working ⟨13⟩ := by
  have hfit : blank.issued namedWorker < 2 ^ 64 := by decide +kernel
  have hfound : (blank.run namedWorker).writer.map (fun t =>
      (t.working.ownershipBetween? ⟨13⟩ ⟨14⟩, (t.perform (.deleteThing ⟨13⟩)).1.toOption)) =
        some (some ⟨15⟩, some .done) := by decide +kernel
  obtain ⟨t, hw, ht⟩ := Option.map_eq_some_iff.1 hfound
  rw [Prod.mk.injEq, toOption_eq_some] at ht
  obtain ⟨hheld, hok⟩ := ht
  have h := ((run_sound start_testing hfit (List.prefix_refl _)).writer hw).working
  obtain ⟨q, hedge⟩ := ownershipBetween?_sound h.recorded h.indexed h.instances hheld
  exact ⟨hfit, t, hw, ⟨q, _, _, hedge, Or.inl rfl⟩, hok, deleted_with_ownerships start_testing hfit hw hok⟩

end Session

end ConceptGraph
