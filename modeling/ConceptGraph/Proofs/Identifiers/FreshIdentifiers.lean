/-
Identifiers are never used again. What goes back to an earlier state does not bring back the counter, so it is enough
that the counter does not come round: that all identifiers fit into 64 bits.

- `Session.handedOut`: the identifiers that have been handed out along a run, those drawn elsewhere included.
- `Concept`: what an identifier stands for. `State.Accords`: a state that mentions only what has been handed out, and
  everything as what it stands for.
- `State.Unused`: a state in which an identifier can be put in. Neither store will find it there already.
- `step_accords`: one event leaves what identifiers stand for, and says it of the new ones.
- `identifiers_never_reused`: so one identifier stands for one concept in all states along a run.
-/
import ConceptGraph.Proofs.Identifiers.PrimitiveEdits
import ConceptGraph.Proofs.Session.Publishing

namespace ConceptGraph

open Std

/-! ## What identifiers stand for -/

inductive Concept where
  /-- a schema element, by what stays of its definition -/
  | type (kind : Kind) (implicitFor : Option TypeId)
  /-- an instance, apart from its players -/
  | thing (b : Thing)

/-- whether an element is mentioned as one, and an instance as one -/
def Mention.Names : Mention → Concept → Prop
  | .type _, .type .. => True
  | .thing _, .thing _ => True
  | _, _ => False

/-- what a schema says of an identifier, as that of an element -/
def Schema.concept (s : Schema) (raw : UInt64) : Concept :=
  match s.get? ⟨raw⟩ with
  | some d => .type d.kind d.implicitFor?
  | none => .type .entity none

/-- what a graph says of an identifier, as that of an instance -/
def Graph.concept (g : Graph) (raw : UInt64) : Concept := .thing ((g.bare? ⟨raw⟩).getD ⟨⟨0⟩, .entity⟩)

theorem Schema.names_concept (s : Schema) (t : TypeId) (raw : UInt64) : (Mention.type t).Names (s.concept raw) := by
  unfold concept
  split <;> exact trivial

/-- an edge from one schema to another with one more element, under another identifier -/
def Schema.InsertsOther (raw : UInt64) (s s' : Schema) : Prop :=
  ∃ (t : TypeId) (d : TypeDef) (p : TypeId), t.raw ≠ raw ∧ s.insert t d p = .ok s'

namespace State

variable {denotes denotes' : UInt64 → Concept} {handed handed' raws : List UInt64} {raw : UInt64} {x y : State}

/-- all that the state mentions has been handed out, and is there as what it stands for -/
structure Accords (denotes : UInt64 → Concept) (handed : List UInt64) (x : State) : Prop where
  mentions : x.MentionsOnly fun m => m.raw ∈ handed ∧ m.Names (denotes m.raw)
  element : ∀ t d, x.schema.get? t = some d → denotes t.raw = .type d.kind d.implicitFor?
  thing : ∀ id b, x.graph.bare? id = some b → denotes id.raw = .thing b

/-- the identifier is mentioned nowhere; put into the schema, even after others, or into the graph, it replaces
nothing -/
structure Unused (raw : UInt64) (x : State) : Prop where
  mentions : x.MentionsOnly fun m => m.raw ≠ raw
  schema : ∀ schema', Relation.ReflTransGen (Schema.InsertsOther raw) x.schema schema' →
    schema'.get? ⟨raw⟩ = none ∧ ∀ b p, (schema'.forest b).insert ⟨raw⟩ p ≠ .error (.duplicateNode ⟨raw⟩)
  graph : x.graph.get? ⟨raw⟩ = none

theorem Accords.extend (h : x.Accords denotes handed) (hsub : ∀ raw ∈ handed, raw ∈ handed')
    (hsame : ∀ raw ∈ handed, denotes' raw = denotes raw) : x.Accords denotes' handed' where
  mentions := h.mentions.imp fun _ hm => ⟨hsub _ hm.1, hsame _ hm.1 ▸ hm.2⟩
  element t d hd := (hsame _ (h.mentions.schema.element t d hd).1).trans (h.element t d hd)
  thing id b hb := (hsame _ (h.mentions.graph.thing id b hb).1.1).trans (h.thing id b hb)

/-- what is not handed out yet is not in use -/
theorem Accords.unused (h : x.Accords denotes handed) (hraw : raw ∉ handed) : x.Unused raw where
  mentions := h.mentions.imp fun _ hm heq => hraw (heq ▸ hm.1)
  schema schema' hs := by
    -- what is put in under other identifiers does not make this one a node
    have hnone : schema'.get? ⟨raw⟩ = none ∧ ∀ b, ¬ (schema'.forest b).contains ⟨raw⟩ := by
      induction hs with
      | refl =>
        refine ⟨Option.eq_none_iff_forall_ne_some.2 fun d hd => hraw (h.mentions.schema.element _ d hd).1,
          fun b hb => ?_⟩
        exact hraw (h.mentions.schema.node b _ hb).1
      | tail _ hins ih =>
        obtain ⟨t, d, p, hne, hins⟩ := hins
        have hother : (⟨raw⟩ : TypeId) ≠ t := fun heq => hne (heq ▸ rfl)
        refine ⟨by rw [Schema.get?_insert hins, if_neg hother, ih.1], fun b hb => ?_⟩
        obtain ⟨k, hk, hforest⟩ := Schema.forest_insert hins
        rw [hforest] at hb
        split at hb
        · exact ((Hierarchy.contains_insert hk _).1 hb).elim hother (ih.2 _)
        · exact ih.2 b hb
    refine ⟨hnone.1, fun b p => ?_⟩
    rw [Hierarchy.insert, if_neg (hnone.2 b)]
    split <;> simp
  graph := by
    by_contra hne
    obtain ⟨th, hth⟩ := Option.ne_none_iff_exists'.1 hne
    exact hraw (h.mentions.graph.thing _ _ (Graph.bare?_of_get? hth)).1.1

/-- what an identifier stands for once others have been handed out, which stand for `c` -/
def extended (denotes : UInt64 → Concept) (raws : List UInt64) (c : UInt64 → Concept) (raw : UInt64) : Concept :=
  if raw ∈ raws then c raw else denotes raw

theorem extended_new {c : UInt64 → Concept} (hraw : raw ∈ raws) : extended denotes raws c raw = c raw := if_pos hraw

theorem extended_old {c : UInt64 → Concept} (hnew : ∀ raw ∈ raws, raw ∉ handed) :
    ∀ raw ∈ handed, extended denotes raws c raw = denotes raw :=
  fun raw hraw => if_neg fun hmem => hnew raw hmem hraw

/-- edits of the schema say what new elements are -/
theorem Accords.schemaEdited (h : x.Accords denotes handed) (hnew : ∀ raw ∈ raws, raw ∉ handed)
    (hy : Transaction.SchemaEdited (fun m => m.raw ∈ handed ∧ m.Names (denotes m.raw)) raws x y) :
    y.Accords (extended denotes raws y.schema.concept) (handed ++ raws) where
  mentions := hy.mentions.imp fun m hm => by
    rcases hm with ⟨hm, hnames⟩ | ⟨t, rfl, ht⟩
    · exact ⟨List.mem_append_left _ hm, extended_old hnew _ hm ▸ hnames⟩
    · exact ⟨List.mem_append_right _ ht, (extended_new ht).symm ▸ y.schema.names_concept t _⟩
  element t d hd := by
    by_cases ht : t.raw ∈ raws
    · rw [extended_new ht, Schema.concept, hd]
    · obtain ⟨e, he, hkind, hfor⟩ := (hy.element t d hd).resolve_left ht
      rw [extended, if_neg ht, h.element t e he, hkind, hfor]
  thing id b hb := by
    rw [hy.graph] at hb
    exact (extended_old hnew _ (h.mentions.graph.thing id b hb).1.1).trans (h.thing id b hb)

/-- edits of the graph say what new instances are -/
theorem Accords.graphEdited (h : x.Accords denotes handed) (hnew : ∀ raw ∈ raws, raw ∉ handed)
    (hy : Transaction.GraphEdited (fun m => m.raw ∈ handed ∧ m.Names (denotes m.raw)) raws x y) :
    y.Accords (extended denotes raws y.graph.concept) (handed ++ raws) where
  mentions := hy.mentions.imp fun m hm => by
    rcases hm with ⟨hm, hnames⟩ | ⟨id, rfl, hid⟩
    · exact ⟨List.mem_append_left _ hm, extended_old hnew _ hm ▸ hnames⟩
    · exact ⟨List.mem_append_right _ hid, (extended_new hid).symm ▸ trivial⟩
  element t d hd := by
    rw [hy.schema] at hd
    exact (extended_old hnew _ (h.mentions.schema.element t d hd).1).trans (h.element t d hd)
  thing id b hb := by
    by_cases hid : id.raw ∈ raws
    · rw [extended_new hid, Graph.concept, hb]
      rfl
    · rw [extended, if_neg hid, h.thing id b ((hy.thing id b hb).resolve_left hid)]

/-- the types to start from stand for themselves -/
theorem bootstrap_accords {m : MetaTypes} (hm : m.toList.Nodup) :
    (⟨.bootstrap m, .empty⟩ : State).Accords (Schema.bootstrap m).concept (m.toList.map TypeId.raw) where
  mentions := (bootstrap_mentionsOnly hm).imp fun x hx => by
    obtain ⟨t, ht, rfl⟩ := hx
    exact ⟨List.mem_map_of_mem ht, Schema.names_concept _ t _⟩
  element t d hd := by rw [Schema.concept, hd]
  thing id b hb := by simp [bare?_empty] at hb

end State

/-! ## Operations -/

namespace Transaction

open State

variable {denotes : UInt64 → Concept} {handed : List UInt64} {t : Transaction} {op : Operation}

/-- **One operation** leaves what identifiers stand for in all states, and says it of those that it draws. -/
theorem perform_accords (hf : ∀ b, (t.working.schema.forest b).Forest) (h : t.Everywhere (Accords denotes handed))
    (op : Operation) (hnew : ∀ raw ∈ t.ids.upcoming (drawn t (t.perform op).2), raw ∉ handed) :
    ∃ c, (t.perform op).2.Everywhere (Accords (extended denotes (t.ids.upcoming (drawn t (t.perform op).2)) c)
      (handed ++ t.ids.upcoming (drawn t (t.perform op).2))) := by
  have hold : ∀ c, t.Everywhere (Accords (extended denotes (t.ids.upcoming (drawn t (t.perform op).2)) c)
      (handed ++ t.ids.upcoming (drawn t (t.perform op).2))) := fun c =>
    h.imp fun x hx => hx.extend (fun _ => List.mem_append_left _) (extended_old hnew)
  by_cases hs : op.editsSchema
  · exact ⟨_, perform_everywhere_of_working (hold _) fun _ =>
      h.working.schemaEdited hnew (perform_schemaEdited hf h.working.mentions hs).2⟩
  · by_cases hg : op.editsGraph
    · exact ⟨_, perform_everywhere_of_working (hold _) fun _ =>
        h.working.graphEdited hnew (perform_graphEdited h.working.mentions hg).2⟩
    · exact ⟨denotes, perform_everywhere_of_working (hold _) fun hop => absurd hop (not_or.2 ⟨hs, hg⟩)⟩

/-- an operation on savepoints draws nothing -/
theorem ids_perform (hop : ¬ (op.editsSchema ∨ op.editsGraph)) (t : Transaction) : (t.perform op).2.ids = t.ids := by
  rcases op.edits_or_savepoint with hedit | ⟨x, rfl⟩ | ⟨x, rfl⟩ | ⟨x, rfl⟩
  · exact absurd hedit hop
  · rfl
  · cases hx : t.savepoints[x]? with
    | none => rw [perform_rollbackTo_none hx]
    | some sp => rw [perform_rollbackTo hx]
  · rw [perform_releaseSavepoint]
    split <;> rfl

/-- **At most three** identifiers are drawn by one operation. -/
theorem perform_draws (hf : ∀ b, (t.working.schema.forest b).Forest) (op : Operation) :
    drawn t (t.perform op).2 ≤ 3 := by
  by_cases hop : op.editsSchema ∨ op.editsGraph
  · rcases hop with hop | hop
    · exact (perform_schemaEdited hf (mentionsOnly_true _) hop).1
    · exact (perform_graphEdited (mentionsOnly_true _) hop).1
  · rw [drawn, ids_perform hop, UInt64.sub_self]
    exact Nat.zero_le 3

/-- what an operation mentions in addition it has drawn, unless it goes back to a savepoint -/
theorem perform_mentionsOnly {K : Mention → Prop} (hf : ∀ b, (t.working.schema.forest b).Forest)
    (hop : ∀ name, op ≠ .rollbackTo name) (hK : t.working.MentionsOnly K) : (t.perform op).2.working.MentionsOnly
      fun m => K m ∨ m.raw ∈ t.ids.upcoming (drawn t (t.perform op).2) := by
  rcases op.edits_or_savepoint with (hedit | hedit) | ⟨x, rfl⟩ | ⟨x, rfl⟩ | ⟨x, rfl⟩
  · refine (perform_schemaEdited hf hK hedit).2.mentions.imp fun m hm => hm.imp_right ?_
    rintro ⟨a, rfl, ha⟩
    exact ha
  · refine (perform_graphEdited hK hedit).2.mentions.imp fun m hm => hm.imp_right ?_
    rintro ⟨id, rfl, hid⟩
    exact hid
  · exact hK.imp fun _ => Or.inl
  · exact absurd rfl (hop x)
  · have hsame : (t.perform (.releaseSavepoint x)).2.working = t.working := by
      rw [perform_releaseSavepoint]
      split <;> rfl
    exact hsame ▸ hK.imp fun _ => Or.inl

end Transaction

/-! ## Events -/

/-- how many identifiers the event can draw -/
def Event.mayDraw : Event → Nat
  | .perform _ => 3
  | .drawElsewhere count => count.toNat
  | _ => 0

namespace Session

open State

variable {denotes : UInt64 → Concept} {handed : List UInt64} {s : Session} {t : Transaction} {e : Event}
  {es p : List Event}

/-- the identifiers that the event draws, in this order -/
def drawnIds (s : Session) (e : Event) : List UInt64 := s.source.upcoming (s.drawnBy e)

/-- the identifiers that are drawn along a run -/
def drawnAlong (s : Session) : List Event → List UInt64
  | [] => []
  | e :: es => s.drawnIds e ++ (s.step e).drawnAlong es

/-- all identifiers that have been handed out after a run from the start, first of all to the types to start from -/
def handedOut (s : Session) (es : List Event) : List UInt64 :=
  s.committed.schema.metaTypes.toList.map TypeId.raw ++ s.drawnAlong es

/-- an event hands out what is not in use in any state, and brings back nothing unless it returns to a savepoint -/
structure DrawsAfresh (s : Session) (e : Event) : Prop where
  few : s.drawnBy e ≤ e.mayDraw
  unused : ∀ raw ∈ s.drawnIds e, s.Everywhere (Unused raw)
  noneBack : ∀ t op, s.writer = some t → e = .perform op → (∀ name, op ≠ .rollbackTo name) →
    ∀ K : Mention → Prop, t.working.MentionsOnly K →
      (t.perform op).2.working.MentionsOnly fun m => K m ∨ m.raw ∈ s.drawnIds e

theorem drawnAlong_append (s : Session) (es es' : List Event) :
    s.drawnAlong (es ++ es') = s.drawnAlong es ++ (s.run es).drawnAlong es' := by
  induction es generalizing s with
  | nil => rfl
  | cons e es ih => rw [List.cons_append, drawnAlong, drawnAlong, ih, run_cons, List.append_assoc]

theorem handedOut_concat (s : Session) (es : List Event) (e : Event) :
    s.handedOut (es ++ [e]) = s.handedOut es ++ (s.run es).drawnIds e := by
  simp only [handedOut, drawnAlong_append, drawnAlong, List.append_nil, List.append_assoc]

theorem source_step (s : Session) (e : Event) :
    (s.step e).source.next = s.source.next + UInt64.ofNat (s.drawnBy e) := by
  rw [drawnBy, UInt64.ofNat_toNat, UInt64.add_comm, UInt64.sub_add_cancel]

/-- nothing but an operation changes the source, unless someone else does -/
theorem source_of_quiet (hop : ∀ op, e ≠ .perform op) (hd : ∀ c, e ≠ .drawElsewhere c) :
    (s.step e).source = s.source := by
  cases hw : s.writer with
  | none =>
    cases e with
    | perform op => exact absurd rfl (hop op)
    | drawElsewhere c => exact absurd rfl (hd c)
    | begin =>
      rw [step_begin_idle hw, source_of_idle hw]
      rfl
    | commit now => rw [step_commit_idle hw]
    | rollback => rw [step_rollback_idle hw]
    | rejectNextCommit => rfl
  | some t =>
    cases e with
    | perform op => exact absurd rfl (hop op)
    | drawElsewhere c => exact absurd rfl (hd c)
    | commit now =>
      rw [source_of_writer hw, step_commit hw]
      obtain ⟨_, _, h⟩ := s.finish_discards t now
      rw [h]
      rfl
    | begin => rw [step_begin hw]
    | rollback =>
      rw [step_rollback hw, source_of_writer hw]
      rfl
    | rejectNextCommit => rfl

theorem drawnBy_of_quiet (hop : ∀ op, e ≠ .perform op) (hd : ∀ c, e ≠ .drawElsewhere c) : s.drawnBy e = 0 := by
  rw [drawnBy, source_of_quiet hop hd, UInt64.sub_self]
  rfl

theorem drawnBy_drawElsewhere (s : Session) (c : UInt64) : s.drawnBy (.drawElsewhere c) = c.toNat := by
  have hnext : (s.step (.drawElsewhere c)).source.next = s.source.next + c := by
    cases hw : s.writer with
    | none => rw [step_drawElsewhere_idle hw, source_of_idle hw, source_of_idle (by exact hw)]
    | some t => rw [step_drawElsewhere hw, source_of_writer hw, source_of_writer rfl]
  rw [drawnBy, hnext, UInt64.add_comm, UInt64.add_sub_cancel]

theorem drawnBy_le (hf : s.Everywhere fun x => ∀ b, (x.schema.forest b).Forest) (e : Event) :
    s.drawnBy e ≤ e.mayDraw := by
  cases e with
  | perform op =>
    cases hw : s.writer with
    | none =>
      rw [drawnBy, step_perform_idle hw, UInt64.sub_self]
      exact Nat.zero_le 3
    | some t =>
      rw [drawnBy_perform hw]
      exact Transaction.perform_draws (hf.writer t hw).working op
  | drawElsewhere c => exact Nat.le_of_eq (s.drawnBy_drawElsewhere c)
  | _ => exact Nat.le_of_eq (drawnBy_of_quiet (fun _ => Event.noConfusion) fun _ => Event.noConfusion)

theorem drawnIds_perform (hw : s.writer = some t) (op : Operation) :
    s.drawnIds (.perform op) = t.ids.upcoming (Transaction.drawn t (t.perform op).2) := by
  rw [drawnIds, drawnBy_perform hw, source_of_writer hw]

/-- **One event** leaves what identifiers stand for in all states, and says it of those that it draws. -/
theorem step_accords (hf : s.Everywhere fun x => ∀ b, (x.schema.forest b).Forest)
    (h : s.Everywhere (Accords denotes handed)) (e : Event) (hnew : ∀ raw ∈ s.drawnIds e, raw ∉ handed) :
    ∃ denotes', (∀ raw ∈ handed, denotes' raw = denotes raw) ∧
      (s.step e).Everywhere (Accords denotes' (handed ++ s.drawnIds e)) := by
  have hold : ∀ c, s.Everywhere (Accords (extended denotes (s.drawnIds e) c) (handed ++ s.drawnIds e)) := fun c =>
    h.imp fun x hx => hx.extend (fun _ => List.mem_append_left _) (extended_old hnew)
  by_cases hop : ∃ op t, e = .perform op ∧ s.writer = some t
  · obtain ⟨op, t, rfl, hw⟩ := hop
    rw [drawnIds_perform hw] at hnew hold ⊢
    obtain ⟨c, hc⟩ := Transaction.perform_accords (hf.writer t hw).working (h.writer t hw) op hnew
    refine ⟨_, extended_old hnew, step_everywhere (hold c) _ fun op' t' he hw' => ?_⟩
    obtain rfl := Event.perform.inj he
    obtain rfl := Option.some.inj (hw.symm.trans hw')
    exact hc
  · exact ⟨_, extended_old hnew, step_everywhere (hold denotes) e fun op t he hw => absurd ⟨op, t, he, hw⟩ hop⟩

/-- an event hands out what is not in use -/
theorem drawsAfresh (hf : s.Everywhere fun x => ∀ b, (x.schema.forest b).Forest)
    (h : s.Everywhere (Accords denotes handed)) (hnew : ∀ raw ∈ s.drawnIds e, raw ∉ handed) : s.DrawsAfresh e where
  few := drawnBy_le hf e
  unused raw hraw := h.imp fun x hx => hx.unused (hnew raw hraw)
  noneBack t op hw he hop K hK := by
    subst he
    rw [drawnIds_perform hw]
    exact Transaction.perform_mentionsOnly (hf.writer t hw).working hop hK

/-! ## Runs -/

theorem handedOut_mono (hp : p <+: es) {raw : UInt64} (hraw : raw ∈ s.handedOut p) : raw ∈ s.handedOut es := by
  obtain ⟨r, rfl⟩ := hp
  rw [handedOut, drawnAlong_append, ← List.append_assoc]
  exact List.mem_append_left _ hraw

section Started

variable {config : SessionConfig} {ids : Option IdSource} {journal : Option Journal}
  (hs : start config ids journal = .ok s)

include hs

/-- the counter goes on from the first identifier, round the limit if it gets there -/
theorem source_run (es : List Event) : (s.run es).source.next = firstId config ids + UInt64.ofNat (s.issued es) := by
  induction es using List.reverseRecOn with
  | nil =>
    obtain ⟨-, hw, hids⟩ := start_spec hs
    rw [run, List.foldl_nil, source, hw, hids]
    rfl
  | append_singleton es e ih =>
    rw [run_concat, source_step, ih, issued_concat, UInt64.ofNat_add, UInt64.add_assoc]

theorem handedOut_eq (es : List Event) : s.handedOut es = (⟨firstId config ids⟩ : IdSource).upcoming (s.issued es) := by
  induction es using List.reverseRecOn with
  | nil =>
    obtain ⟨hc, -, -⟩ := start_spec hs
    rw [handedOut, hc, Schema.metaTypes_bootstrap, (MetaTypes.take_offsets _).1, drawnAlong, List.append_nil,
      List.map_map, IdSource.upcoming_eq]
    rfl
  | append_singleton es e ih =>
    rw [handedOut_concat, ih, issued_concat, IdSource.upcoming_add, drawnIds, ← source_run hs]

variable (hfit : s.issued es ≤ 2 ^ 64)

include hfit

theorem nodup_handedOut (hp : p <+: es) : (s.handedOut p).Nodup :=
  handedOut_eq hs p ▸ IdSource.nodup_upcoming (Nat.le_trans (issued_le hp) hfit)

/-- what the next event draws has not been handed out before -/
theorem drawnIds_new (hp : p ++ [e] <+: es) : ∀ raw ∈ (s.run p).drawnIds e, raw ∉ s.handedOut p := by
  intro raw hraw hold
  have hnodup := nodup_handedOut hs hfit hp
  rw [handedOut_concat] at hnodup
  exact (List.disjoint_of_nodup_append hnodup) hold hraw

/-- **All states along a run** agree about what identifiers stand for. -/
theorem run_accords (hp : p <+: es) : ∃ denotes, ∀ q, q <+: p →
    (s.run q).Everywhere (Accords denotes (s.handedOut q)) := by
  induction p using List.reverseRecOn with
  | nil =>
    obtain ⟨hc, hw, -⟩ := start_spec hs
    refine ⟨(Schema.bootstrap (MetaTypes.take ⟨firstId config ids⟩).1).concept, fun q hq => ?_⟩
    rw [List.prefix_nil.1 hq]
    refine .idle ?_ hw
    rw [handedOut, run, List.foldl_nil, hc]
    simpa [drawnAlong, Schema.metaTypes_bootstrap] using bootstrap_accords (MetaTypes.nodup_take (firstId config ids))
  | append_singleton p e ih =>
    have hp' : p <+: es := (List.prefix_append p [e]).trans hp
    obtain ⟨denotes, hall⟩ := ih hp'
    obtain ⟨denotes', hsame, hstep⟩ :=
      step_accords (run_forests hs hp') (hall p (List.prefix_refl p)) e (drawnIds_new hs hfit hp)
    refine ⟨denotes', fun q hq => ?_⟩
    rcases List.prefix_concat_iff.1 hq with rfl | hq
    · rw [run_concat, handedOut_concat]
      exact hstep
    · -- what `e` draws had not been handed out by the end of `q`, so it means nothing to the states there
      exact (hall q hq).imp fun x hx => hx.extend (fun _ h => h) fun raw hraw => hsame raw (handedOut_mono hq hraw)

end Started

/-- **Identifiers are never used again.** As long as no more than 2^64 are handed out in all, wherever the counter
starts, those that are handed out along a run differ. Each stands for one concept at all times: the committed state, the
working state and all savepoints mention only what has been handed out, and as what it stands for. An event draws what
is in use in none of these states, so neither store finds it there already. -/
theorem identifiers_never_reused {config : SessionConfig} {ids : Option IdSource} {journal : Option Journal}
    (hs : start config ids journal = .ok s) (hfit : s.issued es ≤ 2 ^ 64) :
    (s.handedOut es).Nodup ∧ ∃ denotes, ∀ p, p <+: es →
      (s.run p).Everywhere (Accords denotes (s.handedOut p)) ∧ ∀ e, p ++ [e] <+: es → (s.run p).DrawsAfresh e := by
  obtain ⟨denotes, hall⟩ := run_accords hs hfit (List.prefix_refl es)
  refine ⟨nodup_handedOut hs hfit (List.prefix_refl es), denotes, fun p hp => ⟨hall p hp, fun e he => ?_⟩⟩
  exact drawsAfresh (run_forests hs hp) (hall p hp) (drawnIds_new hs hfit he)

/-- a session whose source is about to come round -/
def brink : Session :=
  ⟨.testing, ⟨2⟩, some .empty,
    ⟨.bootstrap ⟨⟨18446744073709551613⟩, ⟨18446744073709551614⟩, ⟨18446744073709551615⟩, ⟨0⟩, ⟨1⟩⟩, .empty⟩, 1, none⟩

/-- a person that is rolled back, an ownership whose commit is refused, another one, a person that is discarded, and all
other identifiers -/
def roundTrip : List Event :=
  [.begin, .perform (.putEntityType "person"), .perform (.savepoint "s"), .perform (.createEntity ⟨2⟩),
    .perform (.rollbackTo "s"), .perform (.putAttributeType "name" (some .string)), .perform (.has ⟨2⟩ ⟨4⟩),
    .rejectNextCommit, .commit epoch, .begin, .perform (.putEntityType "person"),
    .perform (.putAttributeType "name" (some .string)), .perform (.has ⟨8⟩ ⟨9⟩), .commit epoch, .begin,
    .perform (.createEntity ⟨8⟩), .rollback, .drawElsewhere 18446744073709551599]

theorem roundTrip_never_reuses : start .testing (some ⟨18446744073709551613⟩) (some .empty) = .ok brink ∧
    brink.issued roundTrip = 2 ^ 64 ∧ (brink.handedOut roundTrip).Nodup ∧ ∃ denotes, ∀ p, p <+: roundTrip →
      (brink.run p).Everywhere (Accords denotes (brink.handedOut p)) ∧
        ∀ e, p ++ [e] <+: roundTrip → (brink.run p).DrawsAfresh e := by
  have hs : start .testing (some ⟨18446744073709551613⟩) (some .empty) = .ok brink := rfl
  have hall : brink.issued roundTrip = 2 ^ 64 := by decide +kernel
  exact ⟨hs, hall, identifiers_never_reused hs (Nat.le_of_eq hall)⟩

end Session

end ConceptGraph
