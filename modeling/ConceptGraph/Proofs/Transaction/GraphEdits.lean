/-
What an operation on instances makes of the graph, told once for all of them. The schema stays as it is.

- `Fewer`: nothing is stored and nobody plays in it that was not there before.
- `Regraphs`: an instance more that has no players; a relation more that records an ownership; other players in a
  relation of a user; or fewer of all that.
- `perform_regraphs`: any operation on instances does one of these, whatever comes of it.
- `Edge.of_grown`, `Edge.of_held`, `Edge.of_players`, `Edge.of_fewer`: where the ownerships in the new graph are from.
-/
import ConceptGraph.Proofs.Transaction.Performing

namespace ConceptGraph

open Std

namespace Graph

variable {g g' g'' : Graph} {id : ThingId} {th : Thing}

/-- all that the second graph stores the first one does as well -/
structure Fewer (g g' : Graph) : Prop where
  bare : ∀ x b, g'.bare? x = some b → g.bare? x = some b
  plays : ∀ r role p, g'.Plays r role p → g.Plays r role p

theorem Fewer.refl (g : Graph) : g.Fewer g := ⟨fun _ _ h => h, fun _ _ _ h => h⟩

theorem Fewer.trans (h : g.Fewer g') (h' : g'.Fewer g'') : g.Fewer g'' :=
  ⟨fun x b hb => h.bare x b (h'.bare x b hb), fun r role p hp => h.plays r role p (h'.plays r role p hp)⟩

theorem remove_fewer (hi : g.Indexed) (hc : g.Closed) (hrm : g.remove id = .ok (th, g')) : g.Fewer g' := by
  obtain ⟨-, -, hbare, hplays⟩ := remove_spec hi hc hrm
  refine ⟨fun x b hb => ?_, fun r role p hp => ((hplays r role p).1 hp).1⟩
  rw [hbare] at hb
  split at hb
  · simp at hb
  · exact hb

end Graph

namespace State

variable {s : State} {graph' : Graph} {first : UInt64} {n : Nat} {q q' : ImplicitOwnership} {id r o a o' a' : ThingId}
  {b : Thing}

/-- **What becomes** of the graph in an operation on instances -/
inductive Regraphs (s : State) (graph' : Graph) : Prop where
  | made {id : ThingId} {b : Thing} (hgr : s.graph.Grown graph' id b fun _ _ => False)
  | held {id o a : ThingId} {tho tha : Thing} {decl : OwnershipDecl} {q : ImplicitOwnership}
      (ho : s.graph.get? o = some tho) (ha : s.graph.get? a = some tha)
      (hdecl : s.schema.ownership? tho.type tha.type = some decl)
      (hq : s.schema.implicitForOwned? decl.owned = some q) (hnone : s.ownershipBetween? o a = none)
      (hgr : s.graph.Grown graph' id ⟨q.relation, .relation ∅⟩ fun role p =>
        (role = q.ownerRole ∧ p = o) ∨ (role = q.valueRole ∧ p = a))
  | filled {r : ThingId} {b : Thing} (hb : s.graph.bare? r = some b) (hu : s.UserRelation b)
      (hbare : ∀ x, graph'.bare? x = s.graph.bare? x)
      (hplays : ∀ x role p, graph'.Plays x role p → s.graph.Plays x role p ∨ x = r)
  | fewer (h : s.graph.Fewer graph')

/-- an instance that stays is of the type that it was of -/
theorem Regraphs.kept (hr : Regraphs s graph') {x : ThingId} {b b' : Thing} (hb : s.graph.bare? x = some b)
    (hb' : graph'.bare? x = some b') : b' = b := by
  cases hr with
  | made hgr => exact Option.some.inj (hb'.symm.trans (hgr.kept hb))
  | held _ _ _ _ _ hgr => exact Option.some.inj (hb'.symm.trans (hgr.kept hb))
  | filled _ _ hbare _ => exact Option.some.inj (hb'.symm.trans ((hbare x).trans hb))
  | fewer h => exact Option.some.inj ((h.bare x b' hb').symm.trans hb)

/-! ## Where ownerships are from -/

/-- an ownership in a graph with one more instance has been there, or is recorded by the new one -/
theorem Edge.of_grown {new : TypeId → ThingId → Prop} (hgr : s.graph.Grown graph' id b new)
    (he : ({ s with graph := graph' } : State).Edge q r o a) : s.Edge q r o a ∨
      (r = id ∧ s.schema.implicitForRelation? b.type = some q ∧ new q.ownerRole o ∧ new q.valueRole a) := by
  obtain ⟨c, hc, hq⟩ := he.relation
  rcases hgr.cases hc with ⟨rfl, rfl⟩ | ⟨hne, hc⟩
  · exact Or.inr ⟨rfl, hq, hgr.plays_new.1 he.owner, hgr.plays_new.1 he.held⟩
  · exact Or.inl ⟨⟨c, hc, hq⟩, (hgr.plays_old hne).1 he.owner, (hgr.plays_old hne).1 he.held⟩

/-- an ownership in a graph with one more relation of a record has been there, or is the one that this records -/
theorem Edge.of_held (hs : s.schema.Recorded) (hq : s.schema.HasRecord q)
    (hgr : s.graph.Grown graph' id ⟨q.relation, .relation ∅⟩ fun role p =>
      (role = q.ownerRole ∧ p = o) ∨ (role = q.valueRole ∧ p = a))
    (he : ({ s with graph := graph' } : State).Edge q' r o' a') :
    s.Edge q' r o' a' ∨ (r = id ∧ q' = q ∧ o' = o ∧ a' = a) := by
  rcases he.of_grown hgr with he | ⟨rfl, hq', hown, hval⟩
  · exact Or.inl he
  · -- the new relation is of the record's type, so its roles are those of the record
    obtain rfl := Option.some.inj (((hs.byRelation q.relation q).2 ⟨hq, rfl⟩).symm.trans hq')
    obtain ⟨d, hback⟩ := hs.backed q hq
    have hne := hback.owner_ne_value
    exact Or.inr ⟨rfl, rfl, by simpa [hne] using hown, by simpa [hne.symm] using hval⟩

/-- an ownership has been there if players have changed in a relation of a user alone -/
theorem Edge.of_players (hb : s.graph.bare? id = some b) (hu : s.UserRelation b)
    (hbare : ∀ x, graph'.bare? x = s.graph.bare? x)
    (hplays : ∀ x ro p, graph'.Plays x ro p → s.graph.Plays x ro p ∨ x = id)
    (he : ({ s with graph := graph' } : State).Edge q r o a) : s.Edge q r o a := by
  obtain ⟨c, hc, hq⟩ := he.relation
  replace hc := (hbare r).symm.trans hc
  have hne : r ≠ id := by
    rintro rfl
    obtain rfl := Option.some.inj (hb.symm.trans hc)
    rw [hu.2] at hq
    simp at hq
  exact ⟨⟨c, hc, hq⟩, (hplays _ _ _ he.owner).resolve_right hne, (hplays _ _ _ he.held).resolve_right hne⟩

/-- an ownership that is left has been there -/
theorem Edge.of_fewer (hf : s.graph.Fewer graph') (he : ({ s with graph := graph' } : State).Edge q r o a) :
    s.Edge q r o a := by
  obtain ⟨c, hc, hq⟩ := he.relation
  exact ⟨⟨c, hf.bare _ _ hc, hq⟩, hf.plays _ _ _ he.owner, hf.plays _ _ _ he.held⟩

end State

namespace Transaction

open State

variable {first : UInt64} {n : Nat} {t t' : Transaction} {op : Operation}

/-! ## Operations -/

/-- what is made has no players -/
theorem make_regraphs {b : Thing} (h : t.Sound first n) (hn : n < 2 ^ 64) (hno : b.rolePlayers = []) (hbb : b.bare = b)
    (hv : ∀ v, b.value? = some v → t.working.graph.findAttribute? b.type v = none) (mk : ThingId → Mutation) :
    Ensures (do
      let id ← newThing
      let _ ← editGraph fun g => pure (g.insert id b)
      record (mk id)
      pure id) t fun _ t' => Regraphs t.working t'.working.graph := by
  have hid := h.working.not_contains_next ⟨t.ids.next⟩ h.ids hn
  have hgr := Graph.insert_alone h.working.indexed h.working.closed hid hv hno hbb
  refine .newThing (.editGraph fun x graph hins => .record (.pure ?_))
  obtain rfl : (t.working.graph.insert ⟨t.ids.next⟩ b).2 = graph := congrArg Prod.snd (Except.ok.inj hins)
  exact .made hgr

theorem create_regraphs (h : t.Sound first n) (hn : n < 2 ^ 64) (a : TypeId) (kind : Kind) (body : ThingBody)
    (hno : (⟨a, body⟩ : Thing).rolePlayers = []) (hbb : (⟨a, body⟩ : Thing).bare = ⟨a, body⟩)
    (hv : (⟨a, body⟩ : Thing).value? = none) :
    Ensures (create a kind body) t fun _ t' => Regraphs t.working t'.working.graph :=
  .ask fun _ _ => make_regraphs h hn hno hbb (fun v hv' => by simp [hv] at hv') _

theorem putAttribute_regraphs (h : t.Sound first n) (hn : n < 2 ^ 64) (a : TypeId) (v : Value) :
    Ensures (putAttribute a v) t fun _ t' => Regraphs t.working t'.working.graph := by
  unfold putAttribute
  refine .ask fun _ _ => .look ?_
  cases hfound : t.working.graph.findAttribute? a v with
  | some id => exact .pure (.fewer (.refl _))
  | none =>
    refine make_regraphs (b := ⟨a, .attribute v⟩) h hn rfl rfl (fun w hw => ?_) _
    obtain rfl := Option.some.inj hw
    exact hfound

theorem addRolePlayer_regraphs (h : t.Sound first n) (r : ThingId) (role : TypeId) (p : ThingId) :
    Ensures (addRolePlayer r role p) t fun _ t' => Regraphs t.working t'.working.graph := by
  unfold addRolePlayer
  refine .ask fun _ hc => .editGraph fun added graph' hadd => ?_
  simp only [checkAddRolePlayer, bind_eq_ok] at hc
  obtain ⟨th, hrel, -⟩ := hc
  obtain ⟨hth, -, e, he, hplain⟩ := relation_ok hrel
  obtain ⟨-, -, hbare, hplays⟩ := Graph.addRolePlayer_spec h.working.indexed h.working.closed hadd
  have hfilled : Regraphs t.working graph' := .filled (Graph.bare?_of_get? hth)
    (userRelation_of_plain h.working.recorded he hplain) hbare
    fun y ro p' hp => ((hplays y ro p').1 hp).imp_right And.left
  cases added with
  | true => exact .record_last hfilled
  | false => exact .pure hfilled

theorem removeRolePlayer_regraphs (h : t.Sound first n) (r : ThingId) (role : TypeId) (p : ThingId) :
    Ensures (removeRolePlayer r role p) t fun _ t' => Regraphs t.working t'.working.graph := by
  unfold removeRolePlayer
  refine .ask fun _ hc => .editGraph fun removed graph' hrm => ?_
  obtain ⟨-, -, hbare, hplays⟩ := Graph.removeRolePlayer_spec h.working.indexed h.working.closed hrm
  have hfewer : Regraphs t.working graph' :=
    .fewer ⟨fun x b hb => (hbare x).symm.trans hb, fun y ro p' hp => ((hplays y ro p').1 hp).1⟩
  cases removed with
  | true => exact .record (.pure hfewer)
  | false => exact .pure hfewer

/-- to hold an attribute makes the relation that records it, if there is none, and answers that relation -/
theorem setHas_holds (h : t.Sound first n) (hn : n < 2 ^ 64) (o a : ThingId) :
    Ensures (setHas o a) t fun id t' => t' = t ∨ ∃ decl q,
      t.working.checkSetHas o a = .ok decl ∧ t.working.schema.implicitForOwned? decl.owned = some q ∧
      t.working.ownershipBetween? o a = none ∧ t'.working.schema = t.working.schema ∧
      t.working.graph.Grown t'.working.graph id ⟨q.relation, .relation ∅⟩ fun role p =>
        (role = q.ownerRole ∧ p = o) ∨ (role = q.valueRole ∧ p = a) := by
  unfold setHas
  refine .ask fun decl hc => .look ?_
  cases hfound : t.working.ownershipBetween? o a with
  | some x => exact .pure (Or.inl rfl)
  | none =>
    refine .look ?_
    cases hq : t.working.schema.implicitForOwned? decl.owned with
    | none => exact .throw
    | some q =>
      have hid := h.working.not_contains_next ⟨t.ids.next⟩ h.ids hn
      have hgr₀ := Graph.insert_alone (b := ⟨q.relation, .relation ∅⟩) h.working.indexed h.working.closed hid
        (by simp [Thing.value?]) (by simp [Thing.rolePlayers, Thing.rolePlayers?]) rfl
      refine .newThing (.editGraph fun x g₀ hins => .editGraph fun _ g₁ h₁ => .editGraph fun _ g₂ h₂ =>
        .record (.pure ?_))
      obtain rfl : (t.working.graph.insert ⟨t.ids.next⟩ ⟨q.relation, .relation ∅⟩).2 = g₀ :=
        congrArg Prod.snd (Except.ok.inj hins)
      have hgr := (hgr₀.addRolePlayer h₁).addRolePlayer h₂
      simp only [false_or] at hgr
      exact Or.inr ⟨decl, q, hc, hq, rfl, rfl, hgr⟩

theorem setHas_regraphs (h : t.Sound first n) (hn : n < 2 ^ 64) (o a : ThingId) :
    Ensures (setHas o a) t fun _ t' => Regraphs t.working t'.working.graph := by
  refine (setHas_holds h hn o a).weaken fun _ t' hcase => ?_
  rcases hcase with rfl | ⟨decl, q, hc, hq, hnone, -, hgr⟩
  · exact .fewer (.refl _)
  · obtain ⟨tho, tha, htho, htha, hdecl⟩ := checkSetHas_ok hc
    exact .held htho htha hdecl hq hnone hgr

theorem unsetHas_regraphs (h : t.Sound first n) (o a : ThingId) :
    Ensures (unsetHas o a) t fun _ t' => Regraphs t.working t'.working.graph := by
  unfold unsetHas
  refine .ask fun _ _ => .ask fun _ _ => .look ?_
  cases t.working.ownershipBetween? o a with
  | none => exact .pure (.fewer (.refl _))
  | some r =>
    exact .bind (.editGraph fun th graph' hrm => .pure (.record (.pure
      (.fewer (Graph.remove_fewer h.working.indexed h.working.closed hrm)))))

/-! ### Deleting -/

/-- the edit leaves fewer, whatever comes of it -/
def Shrinks {α : Type} (e : Edit α) : Prop := ∀ t, t.working.graph.Indexed → t.working.graph.Closed →
  t.working.graph.Fewer (outcome e t).2.working.graph ∧ (outcome e t).2.working.graph.Indexed ∧
    (outcome e t).2.working.graph.Closed

theorem Shrinks.bind {α β : Type} {e : Edit β} {k : β → Edit α} (he : Shrinks e) (hk : ∀ b, Shrinks (k b)) :
    Shrinks (e >>= k) := by
  intro t hi hc
  obtain ⟨hfew, hi', hc'⟩ := he t hi hc
  rw [outcome_bind]
  cases hout : outcome e t with
  | mk r t' =>
    rw [hout] at hfew hi' hc'
    cases r with
    | error err => exact ⟨hfew, hi', hc'⟩
    | ok b =>
      obtain ⟨hfew', hrest⟩ := hk b t' hi' hc'
      exact ⟨hfew.trans hfew', hrest⟩

/-- an edit that leaves the graph alone -/
theorem shrinks_of_same {α : Type} {e : Edit α} (h : ∀ t, (outcome e t).2.working.graph = t.working.graph) :
    Shrinks e := by
  intro t hi hc
  rw [h t]
  exact ⟨.refl _, hi, hc⟩

theorem removeThing_shrinks (id : ThingId) : Shrinks (removeThing id) := by
  intro t hi hc
  rw [outcome_removeThing]
  cases hrm : t.working.graph.remove id with
  | error err => exact ⟨.refl _, hi, hc⟩
  | ok p =>
    obtain ⟨hi', hc', -⟩ := Graph.remove_spec hi hc hrm
    exact ⟨Graph.remove_fewer hi hc hrm, hi', hc'⟩

theorem removeThings_shrinks (es : List OwnershipEdge) : Shrinks (es.forM fun e => removeThing e.relation) := by
  induction es with
  | nil => exact shrinks_of_same fun _ => rfl
  | cons e es ih => exact (removeThing_shrinks e.relation).bind fun _ => ih

/-- **Deleting** leaves fewer instances, even if it is refused halfway. -/
theorem deleteThing_shrinks (x : ThingId) : Shrinks (deleteThing x) := by
  refine .bind (shrinks_of_same fun t => by rw [outcome_ask]) fun _ => ?_
  refine .bind (shrinks_of_same fun t => rfl) fun edges => ?_
  exact (removeThings_shrinks edges).bind fun _ => (removeThing_shrinks x).bind fun _ => shrinks_of_same fun _ => rfl

theorem deleteThing_regraphs (h : t.Sound first n) (x : ThingId) :
    Regraphs t.working (outcome (deleteThing x) t).2.working.graph :=
  .fewer (deleteThing_shrinks x t h.working.indexed h.working.closed).1

/-! ### All of them -/

/-- an operation on instances that is done -/
theorem editsGraph_regraphs (h : t.Sound first n) (hn : n < 2 ^ 64) (hop : op.editsGraph) :
    Ensures op.perform t fun _ t' => Regraphs t.working t'.working.graph := by
  cases op with
  | createEntity a => exact .map (create_regraphs h hn a .entity .entity rfl rfl rfl)
  | createRelation a =>
    refine .map (create_regraphs h hn a .relation (.relation ∅) ?_ rfl rfl)
    simp [Thing.rolePlayers, Thing.rolePlayers?]
  | putAttribute a value => exact .map (putAttribute_regraphs h hn a value)
  | addRolePlayer x role p => exact .map (addRolePlayer_regraphs h x role p)
  | removeRolePlayer x role p => exact .map (removeRolePlayer_regraphs h x role p)
  | setHas o a => exact .map (setHas_regraphs h hn o a)
  | unsetHas o a => exact .map (unsetHas_regraphs h o a)
  | deleteThing x =>
    refine .map fun u t' heq => ?_
    have hfew := deleteThing_regraphs h x
    rwa [heq] at hfew
  | _ => cases hop

/-- **Any operation on instances**, whatever comes of it, makes one, lets one hold another, changes the players of a
user's relation, or leaves fewer; and that is all it does. -/
theorem perform_regraphs (h : t.Sound first n) (hfit : n + drawn t (t.perform op).2 < 2 ^ 64) (hop : op.editsGraph) :
    ∃ graph', (t.perform op).2.working = { t.working with graph := graph' } ∧ Regraphs t.working graph' := by
  rcases perform_cases h op hfit with ⟨err, heq⟩ | ⟨r, t', heq, hp⟩ | ⟨err, graph', ⟨x, rfl, -⟩, heq, -⟩
  · rw [heq]
    exact ⟨t.working.graph, rfl, .fewer (.refl _)⟩
  · rw [heq]
    refine ⟨t'.working.graph, ?_, editsGraph_regraphs h (by omega) hop r t' heq⟩
    cases hp with
    | graph _ hd =>
      obtain ⟨k, -, -, -, hstep⟩ := hd
      show t'.working = ⟨t.working.schema, t'.working.graph⟩
      rw [← hstep.schema]
    | schema hs _ => exact absurd hop (Operation.not_editsGraph hs)
    | _ => cases hop
  · refine ⟨graph', by rw [heq]; rfl, ?_⟩
    have hdel := deleteThing_regraphs h x
    have heq' : (t.perform (.deleteThing x)).2 = (outcome (deleteThing x) t).2 := by
      show (outcome ((fun _ => Reply.done) <$> deleteThing x) t).2 = _
      rw [outcome_map]
    rwa [← heq', heq] at hdel

/-- an operation that does not return to a savepoint is one on types, and done, or leaves the types as they are -/
theorem perform_edits (h : t.Sound first n) (hfit : n + drawn t (t.perform op).2 < 2 ^ 64)
    (hback : ∀ name, op ≠ .rollbackTo name) : (op.editsSchema ∧ ∃ r, (t.perform op).1 = .ok r) ∨
      ∃ graph', (t.perform op).2.working = { t.working with graph := graph' } ∧ Regraphs t.working graph' := by
  by_cases hop : op.editsGraph
  · exact Or.inr (perform_regraphs h hfit hop)
  have hsame : ∃ graph', t.working = { t.working with graph := graph' } ∧ Regraphs t.working graph' :=
    ⟨t.working.graph, rfl, .fewer (.refl _)⟩
  rcases perform_cases h op hfit with ⟨err, heq⟩ | ⟨r, t', heq, hp⟩ | ⟨err, graph', ⟨x, rfl, -⟩, -⟩
  · rw [heq]
    exact Or.inr hsame
  · rw [heq]
    cases hp with
    | schema hs _ => exact Or.inl ⟨hs, r, rfl⟩
    | graph hg _ => exact absurd hg hop
    | rollbackTo _ => exact absurd rfl (hback _)
    | _ => exact Or.inr hsame
  · exact absurd rfl hop

/-- **An invariant** of states is kept by any operation, if it is when the schema is edited and when the graph is. -/
theorem perform_everywhere {P : State → Prop} (h : t.Sound first n) (hfit : n + drawn t (t.perform op).2 < 2 ^ 64)
    (ht : t.Everywhere P)
    (hschema : ∀ r, op.editsSchema → (t.perform op).1 = .ok r → P (t.perform op).2.working)
    (hgraph : ∀ graph', Regraphs t.working graph' → P { t.working with graph := graph' }) :
    (t.perform op).2.Everywhere P := by
  have hedited : op.editsGraph → P (t.perform op).2.working := by
    intro hop
    obtain ⟨graph', hw, hr⟩ := perform_regraphs h hfit hop
    exact hw ▸ hgraph graph' hr
  rcases perform_cases h op hfit with ⟨err, heq⟩ | ⟨r, t', heq, hp⟩ | ⟨err, graph', ⟨x, rfl, -⟩, heq, -⟩
  · rwa [heq]
  · rw [heq] at hschema hedited ⊢
    exact hp.everywhere ht (fun hop _ => hschema r hop rfl) fun hop _ => hedited hop
  · rw [heq] at hedited ⊢
    exact ⟨hedited rfl, ht.savepoints⟩

end Transaction

end ConceptGraph
