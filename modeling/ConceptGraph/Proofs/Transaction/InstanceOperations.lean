/-
Instance operations in a transaction, one by one, and savepoints.

- `GraphDone`: an operation that is done; savepoints stay, and what is given up of ownerships is said.
- `create_does` to `unsetHas_does`: each operation is refused and changes nothing, or it is done.
- `deleteThing_does`, `deleteThing_breaks`: deleting an instance removes the ownerships that it is at an end of, one after
  the other. That goes through unless the instance holds itself: the relation that records this is met twice, and the
  second time it is not there any more.
-/
import ConceptGraph.Proofs.Transaction.SchemaOperations

namespace ConceptGraph

open Std

namespace Transaction

open State

/-- an operation on the graph that is done -/
def GraphDone (first : UInt64) (n : Nat) (gone : ThingId → ThingId → Prop) (t t' : Transaction) : Prop :=
  ∃ k ≤ 1, t'.ids.next = t.ids.next + UInt64.ofNat k ∧ t'.savepoints = t.savepoints ∧
    GraphStep first n k gone t.working t'.working

variable {α : Type} {first : UInt64} {n : Nat} {t : Transaction} {a : TypeId} {d : TypeDef} {m : Mutation}

theorem GraphDone.refl (h : t.Sound first n) : GraphDone first n NoneGone t t :=
  ⟨0, Nat.zero_le 1, by simp, rfl, .refl h.working⟩

theorem GraphDone.of_step {gone : ThingId → ThingId → Prop} {s : State} (h : GraphStep first n 0 gone t.working s)
    (ms : List Mutation) : GraphDone first n gone t { t with working := s, mutations := ms } :=
  ⟨0, Nat.zero_le 1, by simp, rfl, h⟩

/-! ## Instances -/

/-- a type that users may make instances of records no ownership -/
theorem no_record {s : State} (hr : s.schema.Recorded) (hd : s.schema.get? a = some d)
    (h : d.kind ≠ .relation ∨ ¬ d.isImplicit) : s.schema.implicitForRelation? a = none := by
  apply Option.eq_none_iff_forall_ne_some.2
  intro q hq
  obtain ⟨hrec, rfl⟩ := (hr.byRelation a q).1 hq
  obtain ⟨e, hback⟩ := hr.backed q hrec
  rcases h with hk | hi
  · exact hk (by rw [← Option.some.inj (hback.relation.symm.trans hd)]; rfl)
  · exact hi (hr.implicit_of_made hrec (Or.inl rfl) hd)

/-- an instance that is as its type wants it, without players, can be made -/
theorem make_does {b : Thing} (h : t.Sound first n) (hno : b.rolePlayers = []) (hbb : b.bare = b)
    (hv : ∀ v, b.value? = some v → t.working.graph.findAttribute? b.type v = none)
    (hfit : t.working.Fits b fun _ _ => False) (mk : ThingId → Mutation) :
    Does n (do
      let id ← newThing
      let _ ← editGraph fun g => pure (g.insert id b)
      record (mk id)
      pure id) t fun _ t' => GraphDone first n NoneGone t t' := by
  refine .draw (m := 1) (draws_newThing fun _ => Keeps.draws ?_) (by decide) fun hn => ?_
  · exact (keeps_editGraph _).bind fun _ => (keeps_record _).bind fun _ => keeps_pure _
  · have hid := h.working.not_contains_next ⟨t.ids.next⟩ h.ids (by omega)
    have hgr := Graph.insert_alone h.working.indexed h.working.closed hid hv hno hbb
    have hs := h.working.store h.ids (by omega) hgr hfit
    obtain ⟨d, hd, -⟩ := hfit.typed
    have hstep := h.working.store_step hgr hs hd
    have hins : (pure (t.working.graph.insert ⟨t.ids.next⟩ b) : Except ConceptError (ThingId × Graph)) =
      .ok ((t.working.graph.insert ⟨t.ids.next⟩ b).1, (t.working.graph.insert ⟨t.ids.next⟩ b).2) := rfl
    exact .newThing (.editGraph hins (.record (.pure ⟨1, Nat.le_refl 1, rfl, rfl, hstep⟩)))

theorem create_does (h : t.Sound first n) (a : TypeId) (kind : Kind) (body : ThingBody)
    (hno : (⟨a, body⟩ : Thing).rolePlayers = []) (hbb : (⟨a, body⟩ : Thing).bare = ⟨a, body⟩)
    (hv : (⟨a, body⟩ : Thing).value? = none) (hk : (⟨a, body⟩ : Thing).kind = kind) :
    Does n (create a kind body) t fun _ t' => GraphDone first n NoneGone t t' := by
  unfold create
  refine .ask fun d hc => ?_
  simp only [checkCreate, bind_eq_ok, Schema.requireKind_eq_ok, notImplicit_eq_ok, concrete_eq_ok, pure_eq_ok] at hc
  obtain ⟨e, ⟨he, hek⟩, -, hplain, -, hcon, rfl⟩ := hc
  have hnone := no_record h.working.recorded he (Or.inr hplain)
  refine make_does h hno hbb (fun v hv' => by simp [hv] at hv') ?_ fun id => .createThing id a
  refine ⟨⟨e, he, hek.trans hk.symm⟩, fun d hd => ?_, fun v hv' => by simp [hv] at hv', fun v _ hv' => by simp [hv] at hv',
    fun _ _ _ => not_false, fun q hq => ?_⟩
  · rwa [Option.some.inj (hd.symm.trans he)]
  · rw [hnone] at hq
    simp at hq

theorem createEntity_does (h : t.Sound first n) (a : TypeId) :
    Does n (createEntity a) t fun _ t' => GraphDone first n NoneGone t t' :=
  create_does h a .entity .entity rfl rfl rfl rfl

theorem createRelation_does (h : t.Sound first n) (a : TypeId) :
    Does n (createRelation a) t fun _ t' => GraphDone first n NoneGone t t' :=
  create_does h a .relation (.relation ∅) (by simp [Thing.rolePlayers, Thing.rolePlayers?]) rfl rfl rfl

theorem putAttribute_does (h : t.Sound first n) (a : TypeId) (v : Value) :
    Does n (putAttribute a v) t fun _ t' => GraphDone first n NoneGone t t' := by
  unfold putAttribute
  refine .ask fun _ hc => .look ?_
  simp only [checkPutAttribute, bind_eq_ok, Schema.requireKind_eq_ok, if_throw_bind_eq_ok, concrete_eq_ok, ne_eq,
    not_not] at hc
  obtain ⟨d, ⟨hd, hk⟩, hdt, -, hcon, hmatch⟩ := hc
  cases hfound : t.working.graph.findAttribute? a v with
  | some id => exact .pure (.refl h)
  | none =>
    have hnone := no_record h.working.recorded hd (Or.inl (by rw [hk]; simp))
    refine make_does (b := ⟨a, .attribute v⟩) h rfl rfl ?_ ?_ fun id => .putAttribute id a v
    · intro w hw
      obtain rfl := Option.some.inj hw
      exact hfound
    · refine ⟨⟨d, hd, hk⟩, fun e he => ?_, fun w hw => ?_, fun w text hw htext x p hp => ?_,
        fun _ _ _ => not_false, fun q hq => ?_⟩
      · rwa [Option.some.inj (he.symm.trans hd)]
      · obtain rfl := Option.some.inj hw
        exact hdt
      · obtain rfl := Option.some.inj hw
        have hmis : t.working.mismatch? a text = none := by
          split at hmatch
          · simp [throw_ne_ok] at hmatch
          · rename_i hbind
            rwa [htext, Option.bind_some] at hbind
        exact mismatch?_eq_none.1 hmis x p hp
      · rw [hnone] at hq
        simp at hq

/-! ## Players -/

/-- a relation whose players users may change is one of a user's type -/
theorem relation_ok {s : State} {r : ThingId} {th : Thing} (h : s.relation r = .ok th) :
    s.graph.get? r = some th ∧ th.isRelation ∧ ∃ d, s.schema.get? th.type = some d ∧ ¬ d.isImplicit := by
  simp only [relation, bind_eq_ok, thing_eq_ok, Schema.require_eq_ok, if_throw_bind_eq_ok, notImplicit_eq_ok,
    pure_eq_ok] at h
  obtain ⟨th', hth, d, hd, hrel, -, hplain, rfl⟩ := h
  exact ⟨hth, by simpa using hrel, d, hd, hplain⟩

theorem userRelation_of_plain {s : State} {th : Thing} (hr : s.schema.Recorded) (hd : s.schema.get? th.type = some d)
    (hp : ¬ d.isImplicit) : s.UserRelation th.bare := by
  rw [UserRelation, Thing.bare_type]
  exact ⟨⟨d, hd⟩, no_record hr hd (Or.inr hp)⟩

theorem addRolePlayer_does (h : t.Sound first n) (r : ThingId) (role : TypeId) (p : ThingId) :
    Does n (addRolePlayer r role p) t fun _ t' => GraphDone first n NoneGone t t' := by
  unfold addRolePlayer
  refine .ask fun _ hc => ?_
  simp only [checkAddRolePlayer, bind_eq_ok, Schema.requireKind_eq_ok, notImplicit_eq_ok, if_throw_bind_eq_ok,
    thing_eq_ok, if_throw_eq_ok, Bool.not_eq_true', Bool.not_eq_false] at hc
  obtain ⟨th, hrel, d, -, -, -, hrole, c, hc, hplay, -⟩ := hc
  obtain ⟨hth, hisrel, e, he, hplain⟩ := relation_ok hrel
  have hu := userRelation_of_plain h.working.recorded he hplain
  have hb := Graph.bare?_of_get? hth
  obtain ⟨added, graph', hadd⟩ := Graph.addRolePlayer_total role hb (by rwa [Thing.bare_isRelation])
    (Graph.contains_iff_get?.2 ⟨c, hc⟩)
  obtain ⟨-, -, hbare, hplays⟩ := Graph.addRolePlayer_spec h.working.indexed h.working.closed hadd
  have hs := h.working.join hb hu (by rwa [Thing.bare_type]) (fun c' hc' => by
    rw [Option.some.inj (hc'.symm.trans (Graph.bare?_of_get? hc)), Thing.bare_type]
    exact hplay) hadd
  have hstep : GraphStep first n 0 NoneGone t.working { t.working with graph := graph' } :=
    ⟨hs, rfl, fun x c hx => Or.inl ((hbare x).symm.trans hx),
      fun q x o a he _ => he.of_graph (hbare x) fun ro y hy => (hplays x ro y).2 (Or.inl hy)⟩
  refine (Done.editGraph hadd ?_).does
  cases added with
  | true => exact .record_last (GraphDone.of_step hstep _)
  | false => exact .pure (GraphDone.of_step hstep _)

theorem removeRolePlayer_does (h : t.Sound first n) (r : ThingId) (role : TypeId) (p : ThingId) :
    Does n (removeRolePlayer r role p) t fun _ t' => GraphDone first n NoneGone t t' := by
  unfold removeRolePlayer
  refine .ask fun _ hc => ?_
  simp only [checkRemoveRolePlayer, bind_eq_ok, Schema.requireKind_eq_ok] at hc
  obtain ⟨th, hrel, -⟩ := hc
  obtain ⟨hth, hisrel, e, he, hplain⟩ := relation_ok hrel
  have hu := userRelation_of_plain h.working.recorded he hplain
  have hb := Graph.bare?_of_get? hth
  obtain ⟨removed, graph', hrm⟩ := Graph.removeRolePlayer_total role p hb (by rwa [Thing.bare_isRelation])
  obtain ⟨-, -, hbare, hplays⟩ := Graph.removeRolePlayer_spec h.working.indexed h.working.closed hrm
  have hstep : GraphStep first n 0 NoneGone t.working { t.working with graph := graph' } := by
    refine ⟨h.working.leave hb hu hrm, rfl, fun x c hx => Or.inl ((hbare x).symm.trans hx), fun q x o a he _ => ?_⟩
    refine he.of_graph (hbare x) fun ro y hy => (hplays x ro y).2 ⟨hy, ?_⟩
    rintro ⟨rfl, -, -⟩
    exact he.not_user hb hu
  refine (Done.editGraph hrm ?_).does
  dsimp only
  cases removed with
  | true => exact .record (.pure (GraphDone.of_step hstep _))
  | false => exact .pure (GraphDone.of_step hstep _)

/-! ## Attributes -/

/-- what may be held is declared -/
theorem checkSetHas_ok {s : State} {o a : ThingId} {decl : OwnershipDecl} (h : s.checkSetHas o a = .ok decl) :
    ∃ tho tha, s.graph.get? o = some tho ∧ s.graph.get? a = some tha ∧
      s.schema.ownership? tho.type tha.type = some decl := by
  simp only [checkSetHas, bind_eq_ok, thing_eq_ok] at h
  obtain ⟨tho, htho, tha, htha, h⟩ := h
  refine ⟨tho, tha, htho, htha, ?_⟩
  split at h
  · obtain ⟨d, -, h⟩ := bind_eq_ok.1 h
    exact absurd h throw_bind_ne_ok
  cases hdecl : s.schema.ownership? tho.type tha.type with
  | none => simp [hdecl, throw_ne_ok] at h
  | some decl' =>
    simp only [hdecl] at h
    split at h
    · rw [pure_eq_ok.1 h]
    · obtain ⟨-, -, h⟩ := bind_eq_ok.1 h
      rw [pure_eq_ok.1 h]

theorem checkSetHas_mayHold {s : State} {o a : ThingId} {decl : OwnershipDecl} (h : s.checkSetHas o a = .ok decl) :
    s.MayHold o a := by
  obtain ⟨tho, tha, htho, htha, hdecl⟩ := checkSetHas_ok h
  refine ⟨_, _, Graph.bare?_of_get? htho, Graph.bare?_of_get? htha, ?_⟩
  rw [Thing.bare_type, Thing.bare_type, hdecl]
  rfl

/-- what may be held comes to be held -/
theorem setHas_settles (h : t.Sound first n) {o a : ThingId} {decl : OwnershipDecl}
    (hc : t.working.checkSetHas o a = .ok decl) :
    Settles n (setHas o a) t fun _ t' => GraphDone first n NoneGone t t' := by
  unfold setHas
  refine .ask hc (.look ?_)
  obtain ⟨tho, tha, htho, htha, hdecl⟩ := checkSetHas_ok hc
  obtain ⟨-, -, -, hdecl'⟩ := Schema.ownershipWithout_sound hdecl
  obtain ⟨r, hrec, ho⟩ := h.working.recorded.owned _ _ hdecl'
  cases hfound : t.working.ownershipBetween? o a with
  | some x => exact (Done.pure (.refl h)).settles
  | none =>
    refine .look ?_
    have hlook : t.working.schema.implicitForOwned? decl.owned = some r := ho ▸ hrec
    simp only [hlook]
    refine .draw (m := 1) (draws_newThing fun _ => Keeps.draws ?_) (by decide) fun hn => ?_
    · exact (keeps_editGraph _).bind fun _ => (keeps_editGraph _).bind fun _ => (keeps_editGraph _).bind fun _ =>
        (keeps_record _).bind fun _ => keeps_pure _
    · have hid := h.working.not_contains_next ⟨t.ids.next⟩ h.ids (by omega)
      obtain ⟨b₁, g₁, b₂, g₂, h₁, h₂, hgr⟩ := h.working.hold_total hid
        (Graph.contains_iff_get?.2 ⟨tho, htho⟩) (Graph.contains_iff_get?.2 ⟨tha, htha⟩) r.relation r.ownerRole r.valueRole
      obtain ⟨e, hback⟩ := h.working.recorded.backed r hrec
      have hs := h.working.hold h.ids (by omega) hrec (checkSetHas_mayHold hc) hgr
      have hstep := h.working.store_step hgr hs hback.relation
      have hins : (pure (t.working.graph.insert ⟨t.ids.next⟩ ⟨r.relation, .relation ∅⟩) : Except ConceptError _) =
        .ok ((t.working.graph.insert ⟨t.ids.next⟩ ⟨r.relation, .relation ∅⟩).1,
          (t.working.graph.insert ⟨t.ids.next⟩ ⟨r.relation, .relation ∅⟩).2) := rfl
      exact .newThing (.editGraph hins (.editGraph h₁ (.editGraph h₂
        (.record (.pure ⟨1, Nat.le_refl 1, rfl, rfl, hstep⟩)))))

theorem setHas_does (h : t.Sound first n) (o a : ThingId) :
    Does n (setHas o a) t fun _ t' => GraphDone first n NoneGone t t' := by
  cases hc : t.working.checkSetHas o a with
  | error err => exact fun _ => Or.inl ⟨err, outcome_refused hc⟩
  | ok decl => exact (setHas_settles h hc).does

/-- an instance that is there can be taken out -/
theorem Done.removeThing {β : Type} {id : ThingId} {th : Thing} {graph : Graph} {k : Unit → Edit β}
    {post : β → Transaction → Prop} (hrm : t.working.graph.remove id = .ok (th, graph))
    (h : Done (k ()) (t.withGraph graph) post) : Done (Transaction.removeThing id >>= k) t post := by
  simp only [Transaction.removeThing, bind_assoc, pure_bind]
  exact .editGraph hrm h

theorem unsetHas_does (h : t.Sound first n) (o a : ThingId) :
    Does n (unsetHas o a) t fun _ t' => GraphDone first n (fun o' a' => o' = o ∧ a' = a) t t' := by
  unfold unsetHas
  refine .ask fun _ _ => .ask fun _ _ => .look ?_
  cases hfound : t.working.ownershipBetween? o a with
  | none => exact .pure (GraphDone.of_step ((GraphStep.refl h.working).weaken fun _ _ => False.elim) _)
  | some r =>
    obtain ⟨q, hedge⟩ := ownershipBetween?_sound h.working.recorded h.working.indexed h.working.instances hfound
    obtain ⟨b, hb, -⟩ := hedge.relation
    obtain ⟨th, hth, -⟩ := Graph.get?_of_bare? hb
    obtain ⟨graph', hrm⟩ := Graph.remove_total hth
    have hstep := h.working.erase_step hrm fun q' r' o' a' he => hedge.apart h.working he
    have hgone : ∀ o' a', (∃ q', t.working.Edge q' r o' a') → o' = o ∧ a' = a := by
      rintro o' a' ⟨q', he⟩
      exact (he.ends_unique h.working.recorded h.working.instances hedge).2
    refine (Done.removeThing hrm ?_).does
    exact .record (.pure (GraphDone.of_step (hstep.weaken hgone) _))

/-! ## Deleting an instance -/

/-- what comes of taking out relations that record ownerships of `x`, one after the other -/
structure Removal (first : UInt64) (n : Nat) (x : ThingId) (rs : List ThingId) (s : State) (r : Except ConceptError Unit)
    (graph' : Graph) : Prop where
  step : GraphStep first n 0 (fun o a => o = x ∨ a = x) s { s with graph := graph' }
  back : ∀ q r o a, ({ s with graph := graph' } : State).Edge q r o a → s.Edge q r o a
  fewer : ∀ y, graph'.contains y → s.graph.contains y
  kept : ∀ y, s.graph.contains y → y ∉ rs → graph'.contains y
  head : ∀ y, rs.head? = some y → ¬ graph'.contains y
  done : rs.Nodup → (∀ y ∈ rs, s.graph.contains y) → r = .ok ()
  all : r = .ok () → rs.Nodup ∧ (∀ y ∈ rs, s.graph.contains y) ∧ ∀ y ∈ rs, ¬ graph'.contains y

theorem outcome_removeThing (id : ThingId) (t : Transaction) : outcome (removeThing id) t =
    match t.working.graph.remove id with
    | .ok (_, graph) => (.ok (), t.withGraph graph)
    | .error err => (.error err, t) := by
  rw [removeThing, outcome_bind, outcome_editGraph]
  cases t.working.graph.remove id <;> rfl

namespace Removal

variable {s : State} {x r o a : ThingId} {rs : List ThingId} {q : ImplicitOwnership} {res : Except ConceptError Unit}
  {graph₁ graph' : Graph} {th : Thing}

theorem nil (h : s.Sound first n) : Removal first n x [] s (.ok ()) s.graph :=
  ⟨(GraphStep.refl h).weaken fun _ _ => False.elim, fun _ _ _ _ he => he, fun _ hy => hy, fun _ hy _ => hy, by simp,
    fun _ _ => rfl, by simp⟩

/-- nothing is taken out when the first relation is not there -/
theorem missing {err : ConceptError} (h : s.Sound first n) (hr : ¬ s.graph.contains r) :
    Removal first n x (r :: rs) s (.error err) s.graph := by
  refine ⟨(GraphStep.refl h).weaken fun _ _ => False.elim, fun _ _ _ _ he => he, fun _ hy => hy, fun _ hy _ => hy, ?_, ?_,
    fun hok => by simp at hok⟩
  · rintro y hy
    obtain rfl := Option.some.inj hy
    exact hr
  · exact fun _ hall => absurd (hall r List.mem_cons_self) hr

/-- one relation is taken out, and then the others -/
theorem cons (h : s.Sound first n) (hedge : s.Edge q r o a) (hx : o = x ∨ a = x)
    (hrm : s.graph.remove r = .ok (th, graph₁)) (hres : Removal first n x rs { s with graph := graph₁ } res graph') :
    Removal first n x (r :: rs) s res graph' := by
  have hend := fun q' r' o' a' (he' : s.Edge q' r' o' a') => hedge.apart h he'
  have hstep := h.erase_step hrm hend
  have hcontains : ∀ y, graph₁.contains y ↔ s.graph.contains y ∧ y ≠ r := fun _ =>
    Graph.contains_remove h.indexed h.closed hrm
  have hgone : ¬ graph'.contains r := fun hy => ((hcontains r).1 (hres.fewer r hy)).2 rfl
  refine ⟨?_, ?_, ?_, ?_, ?_, ?_, ?_⟩
  · refine (hstep.weaken ?_).trans hres.step
    rintro o' a' ⟨q', hedge'⟩
    obtain ⟨-, rfl, rfl⟩ := hedge.ends_unique h.recorded h.instances hedge'
    exact hx
  · exact fun q' r' o' a' he' => ((h.edge_erase hrm hend _ _ _ _).1 (hres.back q' r' o' a' he')).1
  · exact fun y hy => ((hcontains y).1 (hres.fewer y hy)).1
  · intro y hy hne
    rw [List.mem_cons, not_or] at hne
    exact hres.kept y ((hcontains y).2 ⟨hy, hne.1⟩) hne.2
  · intro y hy
    obtain rfl := Option.some.inj hy
    exact hgone
  · intro hnodup hall
    rw [List.nodup_cons] at hnodup
    refine hres.done hnodup.2 fun y hy => (hcontains y).2 ⟨hall y (List.mem_cons_of_mem _ hy), ?_⟩
    rintro rfl
    exact hnodup.1 hy
  · intro hok
    obtain ⟨hnodup, hall, hgone'⟩ := hres.all hok
    refine ⟨List.nodup_cons.2 ⟨fun hy => ((hcontains r).1 (hall r hy)).2 rfl, hnodup⟩, ?_, ?_⟩
    · rw [List.forall_mem_cons]
      exact ⟨(hedge.stored h).1, fun y hy => ((hcontains y).1 (hall y hy)).1⟩
    · rw [List.forall_mem_cons]
      exact ⟨hgone, hgone'⟩

end Removal

theorem outcome_removeThings_cons (e : OwnershipEdge) (es : List OwnershipEdge) (t : Transaction) :
    outcome ((e :: es).forM fun e => removeThing e.relation) t =
      match outcome (removeThing e.relation) t with
      | (.ok _, t') => outcome (es.forM fun e => removeThing e.relation) t'
      | (.error err, t') => (.error err, t') := by
  rw [List.forM_eq_forM, List.forM_cons, outcome_bind]
  cases outcome (removeThing e.relation) t with
  | mk r t' => cases r <;> rfl

/-- the relations are taken out up to the first one that is not there any more -/
theorem removal (x : ThingId) (es : List OwnershipEdge) (h : t.Sound first n)
    (hes : ∀ e ∈ es, t.working.graph.contains e.relation →
      ∃ q o a, t.working.Edge q e.relation o a ∧ (o = x ∨ a = x)) :
    ∃ r graph', outcome (es.forM fun e => removeThing e.relation) t = (r, t.withGraph graph') ∧
      Removal first n x (es.map OwnershipEdge.relation) t.working r graph' := by
  induction es generalizing t with
  | nil => exact ⟨.ok (), t.working.graph, rfl, .nil h.working⟩
  | cons e es ih =>
    rw [outcome_removeThings_cons, outcome_removeThing]
    cases hth : t.working.graph.get? e.relation with
    | none =>
      have hrm : t.working.graph.remove e.relation = .error (.unknownThing e.relation) := by rw [Graph.remove, hth]
      have hnot : ¬ t.working.graph.contains e.relation := by simp [Graph.contains_iff_get?, hth]
      rw [hrm]
      exact ⟨_, t.working.graph, rfl, .missing h.working hnot⟩
    | some th =>
      obtain ⟨q, o, a, hedge, hx⟩ := hes e List.mem_cons_self (Graph.contains_iff_get?.2 ⟨th, hth⟩)
      obtain ⟨graph₁, hrm⟩ := Graph.remove_total hth
      have hend := fun q' r' o' a' (he' : t.working.Edge q' r' o' a') => hedge.apart h.working he'
      have h₁ : (t.withGraph graph₁).Sound first n := ⟨h.ids, (h.working.erase_step hrm hend).sound, h.savepoints⟩
      obtain ⟨r, graph', hout, hres⟩ := ih h₁ fun e' he' hin' => by
        obtain ⟨hin', hne⟩ := (Graph.contains_remove h.working.indexed h.working.closed hrm).1 hin'
        obtain ⟨q', o', a', hedge', hx'⟩ := hes e' (List.mem_cons_of_mem e he') hin'
        exact ⟨q', o', a', (h.working.edge_erase hrm hend _ _ _ _).2 ⟨hedge', hne⟩, hx'⟩
      rw [hrm]
      exact ⟨r, graph', hout, .cons h.working hedge hx hrm hres⟩

/-- an instance that may be deleted is there, and is no record of an ownership -/
theorem checkDeleteThing_eq_ok {s : State} {x : ThingId} {u : Unit} : s.checkDeleteThing x = .ok u ↔
    ∃ th, s.graph.get? x = some th ∧ ¬ s.schema.isImplicitRelation th.type := by
  simp only [checkDeleteThing, bind_eq_ok, thing_eq_ok, if_throw_eq_ok, pure_eq_ok, and_true]

/-- what is found from either end is an ownership, and every ownership is found -/
theorem mem_edges {s : State} (h : s.Sound first n) (x : ThingId) :
    (∀ e ∈ s.ownershipsOf x ++ s.ownersOf x, ∃ q o a, s.Edge q e.relation o a ∧ (o = x ∨ a = x)) ∧
    ∀ q r o a, s.Edge q r o a → (o = x ∨ a = x) →
      r ∈ (s.ownershipsOf x ++ s.ownersOf x).map OwnershipEdge.relation := by
  constructor
  · intro e he
    rcases List.mem_append.1 he with he | he
    · obtain ⟨-, q, hedge⟩ := (mem_ownershipsOf h.recorded h.indexed h.instances).1 he
      exact ⟨q, x, e.held, hedge, Or.inl rfl⟩
    · obtain ⟨-, q, hedge⟩ := (mem_ownersOf h.recorded h.indexed h.instances).1 he
      exact ⟨q, e.owner, x, hedge, Or.inr rfl⟩
  · rintro q r o a hedge (rfl | rfl)
    · exact List.mem_map.2 ⟨⟨r, o, a⟩, List.mem_append_left _
        ((mem_ownershipsOf h.recorded h.indexed h.instances).2 ⟨rfl, q, hedge⟩), rfl⟩
    · exact List.mem_map.2 ⟨⟨r, o, a⟩, List.mem_append_right _
        ((mem_ownersOf h.recorded h.indexed h.instances).2 ⟨rfl, q, hedge⟩), rfl⟩

/-- an instance that may be deleted records no ownership -/
theorem not_edge_of_plain {s : State} {x o a : ThingId} {th : Thing} {q : ImplicitOwnership} (hth : s.graph.get? x = some th)
    (hplain : ¬ ∃ q, s.schema.implicitForRelation? th.type = some q) : ¬ s.Edge q x o a := by
  intro hedge
  obtain ⟨b, hb, hq⟩ := hedge.relation
  obtain rfl := Option.some.inj (hb.symm.trans (Graph.bare?_of_get? hth))
  rw [Thing.bare_type] at hq
  exact hplain ⟨q, hq⟩

/-- the instance itself can be taken out when no relation is left that records an ownership of it -/
theorem Removal.erase {s : State} {x : ThingId} {rs : List ThingId} {graph' : Graph}
    (hres : Removal first n x rs s (.ok ()) graph') (hfound : ∀ q r o a, s.Edge q r o a → (o = x ∨ a = x) → r ∈ rs)
    (hedges : ∀ y ∈ rs, ∃ q o a, s.Edge q y o a) (hx : s.graph.contains x) (hnot : ∀ q o a, ¬ s.Edge q x o a) :
    ∃ th graph'', graph'.remove x = .ok (th, graph'') ∧
      GraphStep first n 0 (fun o a => o = x ∨ a = x) s { s with graph := graph'' } := by
  obtain ⟨-, -, hgone⟩ := hres.all rfl
  have hx' : graph'.contains x := by
    apply hres.kept x hx
    intro hmem
    obtain ⟨q, o, a, hedge⟩ := hedges x hmem
    exact hnot q o a hedge
  obtain ⟨th, hth⟩ := Graph.contains_iff_get?.1 hx'
  obtain ⟨graph'', hrm⟩ := Graph.remove_total hth
  have hstep := hres.step.sound.erase_step hrm fun q y o a hedge => by
    by_contra hxe
    rw [ne_eq, ne_eq, ← not_or, not_not] at hxe
    exact hgone y (hfound q y o a (hres.back q y o a hedge) hxe) (hedge.stored hres.step.sound).1
  refine ⟨th, graph'', hrm, hres.step.trans (hstep.weaken ?_)⟩
  rintro o a ⟨q, hedge⟩
  exact absurd (hres.back q x o a hedge) (hnot q o a)

/-- **Deleting** an instance that does not hold itself is refused, or done with everything that belongs to it. -/
theorem deleteThing_does (h : t.Sound first n) (x : ThingId) (hself : ¬ (t.working.ownershipBetween? x x).isSome) :
    Does n (deleteThing x) t fun _ t' => GraphDone first n (fun o a => o = x ∨ a = x) t t' := by
  unfold deleteThing
  refine .ask fun _ hc => .look ?_
  obtain ⟨th, hth, hplain⟩ := checkDeleteThing_eq_ok.1 hc
  rw [h.working.recorded.isImplicitRelation_iff] at hplain
  rw [ownershipBetween?_isSome h.working.recorded h.working.indexed h.working.instances] at hself
  obtain ⟨hedges, hfound⟩ := mem_edges h.working x
  have hmem : ∀ y ∈ (t.working.ownershipsOf x ++ t.working.ownersOf x).map OwnershipEdge.relation,
      ∃ q o a, t.working.Edge q y o a := by
    intro y hy
    obtain ⟨e, he, rfl⟩ := List.mem_map.1 hy
    obtain ⟨q, o, a, hedge, -⟩ := hedges e he
    exact ⟨q, o, a, hedge⟩
  obtain ⟨r, graph', hout, hres⟩ := removal x _ h fun e he _ => hedges e he
  have hr : r = .ok () := by
    apply hres.done ((nodup_edges_iff h.working.recorded h.working.indexed h.working.instances).2 hself)
    intro y hy
    obtain ⟨q, o, a, hedge⟩ := hmem y hy
    exact (hedge.stored h.working).1
  subst hr
  obtain ⟨th', graph'', hrm, hstep⟩ := hres.erase hfound hmem (Graph.contains_iff_get?.2 ⟨th, hth⟩)
    fun q o a => not_edge_of_plain hth hplain
  have hdone := GraphDone.of_step hstep (t.mutations ++ [.deleteThing x])
  exact (Done.bind hout (.removeThing hrm (.record_last hdone))).does

/-- **Deleting** an instance that holds itself takes out relations that record its ownerships, and is refused then. -/
theorem deleteThing_breaks (h : t.Sound first n) (x : ThingId) (hself : (t.working.ownershipBetween? x x).isSome) :
    ∃ err graph', outcome (deleteThing x) t = (.error err, t.withGraph graph') ∧
      GraphStep first n 0 (fun o a => o = x ∨ a = x) t.working { t.working with graph := graph' } ∧
      graph' ≠ t.working.graph := by
  rw [ownershipBetween?_isSome h.working.recorded h.working.indexed h.working.instances] at hself
  obtain ⟨q, r, hedge⟩ := hself
  obtain ⟨th, hth⟩ := Graph.contains_iff_get?.1 (hedge.stored h.working).2.1
  have hcheck : t.working.checkDeleteThing x = .ok () := by
    refine checkDeleteThing_eq_ok.2 ⟨th, hth, fun hi => ?_⟩
    obtain ⟨q', hq'⟩ := h.working.recorded.isImplicitRelation_iff.1 hi
    exact (hedge.not_end h.working (Graph.bare?_of_get? hth) (by rw [Thing.bare_type]; exact hq')).1 rfl
  obtain ⟨hedges, hfound⟩ := mem_edges h.working x
  obtain ⟨res, graph', hout, hres⟩ := removal x _ h fun e he _ => hedges e he
  have hne : graph' ≠ t.working.graph := by
    rintro rfl
    cases hes : (t.working.ownershipsOf x ++ t.working.ownersOf x).map OwnershipEdge.relation with
    | nil =>
      have := hfound q r x x hedge (Or.inl rfl)
      simp [hes] at this
    | cons y ys =>
      have hy := hres.head y (by rw [hes]; rfl)
      obtain ⟨e, he, rfl⟩ := List.mem_map.1 (hes ▸ List.mem_cons_self : y ∈ List.map OwnershipEdge.relation _)
      obtain ⟨q', o, a, hedge', -⟩ := hedges e he
      exact hy (hedge'.stored h.working).1
  cases res with
  | ok u =>
    obtain ⟨hnodup, -⟩ := hres.all rfl
    exact absurd ⟨q, r, hedge⟩ ((nodup_edges_iff h.working.recorded h.working.indexed h.working.instances).1 hnodup)
  | error err =>
    refine ⟨err, graph', ?_, hres.step, hne⟩
    rw [deleteThing, outcome_bind, outcome_ask, hcheck]
    show outcome (look _ >>= _) t = _
    rw [outcome_bind, outcome_look]
    show outcome (_ >>= _) t = _
    rw [outcome_bind, hout]

/-! ## Savepoints -/

theorem outcome_savepoint (name : String) (t : Transaction) : outcome (savepoint name) t =
    (.ok (), { t with savepoints := t.savepoints.insert name ⟨t.working, t.mutations.length⟩ }) := rfl

theorem outcome_rollbackTo (name : String) (t : Transaction) : outcome (rollbackTo name) t =
    match t.savepoints[name]? with
    | none => (.error (.unknownLabel name), t)
    | some sp => (.ok (), { t with
        working := sp.state
        mutations := t.mutations.take sp.applied
        savepoints := t.savepoints.filter fun _ other => other.applied ≤ sp.applied }) := by
  show outcome (get >>= _) t = _
  rw [outcome_bind]
  show outcome (match t.savepoints[name]? with | none => _ | some sp => _) t = _
  cases t.savepoints[name]? <;> rfl

theorem outcome_releaseSavepoint (name : String) (t : Transaction) : outcome (releaseSavepoint name) t =
    if t.savepoints.contains name then (.ok (), { t with savepoints := t.savepoints.erase name })
    else (.error (.unknownLabel name), t) := by
  show outcome (get >>= _) t = _
  rw [outcome_bind]
  show outcome (if t.savepoints.contains name then _ else _) t = _
  split <;> rfl

end Transaction

end ConceptGraph
