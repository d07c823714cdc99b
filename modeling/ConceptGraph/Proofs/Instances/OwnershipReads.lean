/-
What users read of instances, and what becomes of it when the schema is edited.

Who holds what is read off the graph with the help of the records in the schema, so an edit of the schema might change it.

- `SameReads`: all that can be asked about players, relations and ownerships has the same answers in two states.
- `TakesBack`, `GivesUp`: the events that return to an earlier state, and those that are meant to give an ownership up.
- `Session.reads_stay`: an operation on the schema changes no answer, unless it strands relations, when it does change
  one. An ownership stays until it is given up, taken back or stranded.
-/
import ConceptGraph.Proofs.Instances.Typing
import ConceptGraph.State.Reads

namespace ConceptGraph

open Std

namespace State

/-- what there is to read about instances is the same -/
structure SameReads (s s' : State) : Prop where
  attributes : ∀ o, s.graph.contains o → s'.attributesOf o = s.attributesOf o
  holders : ∀ a, s.graph.contains a → s'.holdersOf a = s.holdersOf a
  between : ∀ o a, s.graph.contains o → s.graph.contains a → s'.ownershipBetween? o a = s.ownershipBetween? o a
  players : ∀ r, s.graph.contains r → s'.rolePlayers r = s.rolePlayers r
  relations : ∀ p, s.graph.contains p → s'.graph.relationsOf p = s.graph.relationsOf p

variable {s s' : State} {first : UInt64} {n k : Nat} {lost : TypeId → Prop} {q : ImplicitOwnership} {r o a : ThingId}

/-- an edit of the schema changes no answer, unless there are instances of a type that goes along -/
theorem SchemaStep.sameReads (h : SchemaStep first n k lost s s')
    (hlost : ∀ id b, s.graph.bare? id = some b → ¬ lost b.type) : s.SameReads s' := by
  have hq : ∀ id b, s.graph.bare? id = some b →
      s'.schema.implicitForRelation? b.type = s.schema.implicitForRelation? b.type :=
    fun id b hb => h.records id b hb (hlost id b hb)
  refine ⟨fun o _ => ?_, fun a _ => ?_, fun o a _ _ => ownershipBetween?_congr h.graph hq o a, fun r _ => ?_, fun p _ => ?_⟩
  · rw [attributesOf, attributesOf, ownershipsOf_congr h.graph hq]
  · rw [holdersOf, holdersOf, ownersOf_congr h.graph hq]
  · rw [rolePlayers, rolePlayers, h.graph]
  · rw [h.graph]

/-- the ownerships that an edit of the schema leaves -/
theorem SchemaStep.edge_iff (h : SchemaStep first n k lost s s') : s'.Edge q r o a ↔
    s.Edge q r o a ∧ ∀ b, s.graph.bare? r = some b → ¬ lost b.type := by
  constructor
  · rintro ⟨⟨b, hb, hq⟩, ho, ha⟩
    rw [h.graph] at hb ho ha
    have hl : ¬ lost b.type := by
      intro hl
      rw [(h.lost _ hl).2] at hq
      simp at hq
    refine ⟨⟨⟨b, hb, h.records r b hb hl ▸ hq⟩, ho, ha⟩, fun c hc => ?_⟩
    rwa [← Option.some.inj (hb.symm.trans hc)]
  · rintro ⟨⟨⟨b, hb, hq⟩, ho, ha⟩, hl⟩
    refine ⟨⟨b, ?_, (h.records r b hb (hl b hb)).trans hq⟩, ?_, ?_⟩ <;> rw [h.graph]
    · exact hb
    · exact ho
    · exact ha

/-- an instance whose ownership is stranded holds fewer attributes than before -/
theorem SchemaStep.attributesOf_ne (hs : s.Sound first n) (h : SchemaStep first n k lost s s') (he : s.Edge q r o a)
    (hl : ∀ b, s.graph.bare? r = some b → lost b.type) : s'.attributesOf o ≠ s.attributesOf o := by
  have hmem : ∀ x, x ∈ (s'.ownershipsOf o).map OwnershipEdge.relation →
      x ∈ ((s.ownershipsOf o).map OwnershipEdge.relation).erase r := by
    intro x hx
    obtain ⟨e, he', rfl⟩ := List.mem_map.1 hx
    obtain ⟨ho, q', hedge⟩ := (mem_ownershipsOf h.sound.recorded h.sound.indexed h.sound.instances).1 he'
    obtain ⟨hedge, hkept⟩ := h.edge_iff.1 hedge
    refine (List.mem_erase_of_ne fun hxr => ?_).2 (List.mem_map.2 ⟨e,
      (mem_ownershipsOf hs.recorded hs.indexed hs.instances).2 ⟨ho, q', hedge⟩, rfl⟩)
    obtain ⟨b, hb, -⟩ := he.relation
    exact hkept b (hxr ▸ hb) (hl b hb)
  have hr : r ∈ (s.ownershipsOf o).map OwnershipEdge.relation :=
    List.mem_map.2 ⟨⟨r, o, a⟩, (mem_ownershipsOf hs.recorded hs.indexed hs.instances).2 ⟨rfl, q, he⟩, rfl⟩
  have hlen := ((nodup_ownershipsOf s' o).subperm hmem).length_le
  rw [List.length_erase_of_mem hr] at hlen
  have hpos := List.length_pos_of_mem hr
  intro heq
  have := congrArg List.length heq
  simp only [attributesOf, inOrder, List.length_mergeSort, List.length_map] at this hlen hpos
  omega

end State

namespace Transaction

variable {first : UInt64} {n : Nat} {t t' : Transaction} {op : Operation} {r : Reply}

/-- **An operation on the schema** changes no answer, if and only if it strands no relation. -/
theorem sameReads_iff (h : t.Sound first n) (hfit : n + drawn t (t.perform op).2 < 2 ^ 64) (hop : op.editsSchema)
    (hok : (t.perform op).1 = .ok r) : t.working.SameReads (t.perform op).2.working ↔ ¬ op.Strands t := by
  constructor
  · intro hsame hst
    obtain ⟨id, q, o, a, hedge, ⟨k, -, -, -, hstep⟩, hlost⟩ := stranded h hfit hst
    exact hstep.attributesOf_ne h.working hedge hlost (hsame.attributes o (hedge.stored h.working).2.1)
  · intro hst
    obtain ⟨k, -, -, -, hstep⟩ := (performed_of_ok h hfit hok).schemaDone hop
    exact hstep.sameReads fun id b hb hl => hst (strands_of_loses h hok hb hl)

/-- **An ownership stays** when an operation neither returns to a savepoint, nor gives it up, nor strands it. -/
theorem edge_perform (h : t.Sound first n) (hfit : n + drawn t (t.perform op).2 < 2 ^ 64)
    (hback : ∀ name, op ≠ .rollbackTo name) {q : ImplicitOwnership} {x o a : ThingId} (hg : ¬ op.GivesUp o a)
    (hst : ¬ op.Strands t) (he : t.working.Edge q x o a) : (t.perform op).2.working.Edge q x o a := by
  rcases perform_cases h op hfit with ⟨err, heq⟩ | ⟨r, t', heq, hp⟩ | ⟨err, graph', -, heq, hstep, -⟩
  · rwa [heq]
  · rw [heq]
    cases hp with
    | schema _ hd =>
      obtain ⟨k, -, -, -, hstep⟩ := hd
      exact hstep.edge_iff.2 ⟨he, fun b hb hl => hst (strands_of_loses h (by rw [heq]) hb hl)⟩
    | graph _ hd =>
      obtain ⟨k, -, -, -, hstep⟩ := hd
      exact hstep.edges q x o a he hg
    | rollbackTo _ => exact absurd rfl (hback _)
    | _ => exact he
  · rw [heq]
    exact hstep.edges q x o a he hg

end Transaction

/-- the event returns to an earlier state: a commit does if it is not answered by a number -/
def Event.TakesBack (e : Event) (s : Session) : Prop :=
  e = .rollback ∨ (∃ name, e = .perform (.rollbackTo name)) ∨
    ∃ now r s', e = .commit now ∧ s.commit now = some (r, s') ∧ ∀ txn, r ≠ .ok txn

/-- the event is meant to give the ownership up: the attribute is let go, or one of the two is deleted -/
def Event.GivesUp (e : Event) (o a : ThingId) : Prop := ∃ op, e = .perform op ∧ op.GivesUp o a

namespace Session

variable {config : SessionConfig} {ids : Option IdSource} {journal : Option Journal} {s : Session} {es : List Event}
  {first : UInt64} {n : Nat}

/-- the state that users see: that of the open transaction, or else the committed one -/
def current (s : Session) : State :=
  match s.writer with
  | some t => t.working
  | none => s.committed

theorem current_of_writer {t : Transaction} (hw : s.writer = some t) : s.current = t.working := by rw [current, hw]

theorem current_of_idle (hw : s.writer = none) : s.current = s.committed := by rw [current, hw]

theorem Sound.current (h : s.Sound first n) : s.current.Sound first n := by
  cases hw : s.writer with
  | none =>
    rw [current_of_idle hw]
    exact h.states.committed
  | some t =>
    rw [current_of_writer hw]
    exact (h.writer hw).working

/-- an event that is no operation leaves users with the state that they had, unless it returns to an earlier one -/
theorem current_step {e : Event} (hop : ∀ op, e ≠ .perform op) (hback : ¬ e.TakesBack s) : (s.step e).current = s.current := by
  cases hw : s.writer with
  | none =>
    rw [current_of_idle hw]
    cases e with
    | begin =>
      rw [step_begin_idle hw]
      rfl
    | perform op => exact absurd rfl (hop op)
    | commit now =>
      rw [step_commit_idle hw]
      exact current_of_idle hw
    | rollback => exact absurd (Or.inl rfl) hback
    | rejectNextCommit => exact current_of_idle hw
    | drawElsewhere count =>
      rw [step_drawElsewhere_idle hw]
      exact current_of_idle hw
  | some t =>
    rw [current_of_writer hw]
    cases e with
    | begin =>
      rw [step_begin hw]
      exact current_of_writer hw
    | perform op => exact absurd rfl (hop op)
    | commit now =>
      rw [step_commit hw]
      obtain ⟨hnone, ⟨-, hc⟩ | ⟨hne, -⟩⟩ := s.finish_cases t now
      · exact (current_of_idle hnone).trans hc
      · exact absurd (Or.inr (Or.inr ⟨now, _, _, rfl, commit_of_writer hw now, hne⟩)) hback
    | rollback => exact absurd (Or.inl rfl) hback
    | rejectNextCommit => exact current_of_writer hw
    | drawElsewhere count =>
      rw [step_drawElsewhere hw]
      rfl

/-- **An ownership stays** after any event that neither returns to an earlier state, nor gives it up, nor strands it. -/
theorem edge_step (h : s.Sound first n) {e : Event} (hfit : n + s.drawnBy e < 2 ^ 64) (hback : ¬ e.TakesBack s)
    {q : ImplicitOwnership} {x o a : ThingId} (hg : ¬ e.GivesUp o a) (hst : ¬ e.Strands s) (he : s.current.Edge q x o a) :
    (s.step e).current.Edge q x o a := by
  by_cases hop : ∃ op, e = .perform op
  · obtain ⟨op, rfl⟩ := hop
    cases hw : s.writer with
    | none => rwa [step_perform_idle hw]
    | some t =>
      rw [drawnBy_perform hw] at hfit
      rw [current_of_writer hw] at he
      rw [step_perform hw]
      exact Transaction.edge_perform (h.writer hw) hfit (fun name hname => hback (Or.inr (Or.inl ⟨name, by rw [hname]⟩)))
        (fun hgo => hg ⟨op, rfl, hgo⟩) (fun hso => hst ⟨op, t, rfl, hw, hso⟩) he
  · rw [current_step (fun op hop' => hop ⟨op, hop'⟩) hback]
    exact he

/-- **Reads stay** the same through every operation on the schema that is done, if and only if it strands no relation;
and an ownership stays until it is given up, taken back or stranded. -/
theorem reads_stay_iff (hs : start config ids journal = .ok s) (hfit : s.issued es < 2 ^ 64) :
    (∀ p op t r, p ++ [.perform op] <+: es → (s.run p).writer = some t → op.editsSchema → (t.perform op).1 = .ok r →
      (t.working.SameReads (t.perform op).2.working ↔ ¬ op.Strands t)) ∧
    ∀ p p' o a, p ++ p' <+: es → ((s.run p).current.ownershipBetween? o a).isSome →
      (∀ m e, m ++ [e] <+: p' →
        ¬ e.TakesBack (s.run (p ++ m)) ∧ ¬ e.GivesUp o a ∧ ¬ e.Strands (s.run (p ++ m))) →
      ((s.run (p ++ p')).current.ownershipBetween? o a).isSome := by
  constructor
  · intro p op t r hp hw hop hok
    exact Transaction.sameReads_iff (writer_sound hs hfit hp hw) (fits_during hfit hw hp) hop hok
  · intro p p' o a hp hheld hstay
    have hsound : ∀ m, m <+: p' → (s.run (p ++ m)).Sound (firstId config ids) (s.issued (p ++ m)) :=
      fun m hm => run_sound hs hfit (((List.prefix_append_right_inj p).2 hm).trans hp)
    have hhold : ∀ m, m <+: p' → (((s.run (p ++ m)).current.ownershipBetween? o a).isSome ↔
        ∃ q x, (s.run (p ++ m)).current.Edge q x o a) := fun m hm =>
      have h := (hsound m hm).current
      State.ownershipBetween?_isSome h.recorded h.indexed h.instances
    obtain ⟨q, x, hedge⟩ := (hhold [] List.nil_prefix).1 (by rwa [List.append_nil])
    refine (hhold p' (List.prefix_refl _)).2 ⟨q, x, ?_⟩
    rw [List.append_nil] at hedge
    rw [run_append]
    refine run_induction (P := fun s => s.current.Edge q x o a) hedge (fun m e hm he => ?_) (List.prefix_refl p')
    obtain ⟨hback, hg, hst⟩ := hstay m e hm
    rw [← run_append] at he ⊢
    refine edge_step (hsound m ((List.prefix_append m [e]).trans hm)) ?_ hback hg hst he
    rw [← issued_concat, List.append_assoc]
    exact Nat.lt_of_le_of_lt (issued_le (((List.prefix_append_right_inj p).2 hm).trans hp)) hfit

theorem reads_change : blank.issued strandingNames < 2 ^ 64 ∧
    ∃ t r, (blank.run strandingNames.dropLast).writer = some t ∧ (t.perform (.deleteType ⟨7⟩)).1 = .ok r ∧
      ¬ t.working.SameReads (t.perform (.deleteType ⟨7⟩)).2.working := by
  have hfit : blank.issued strandingNames < 2 ^ 64 := by decide +kernel
  obtain ⟨t, hw, hst⟩ := strandingNames_strands
  have hst' := hst
  obtain ⟨a, r, q, -, hok, -⟩ := hst'
  refine ⟨hfit, t, r, hw, hok, fun hsame => ?_⟩
  exact ((reads_stay_iff start_testing hfit).1 strandingNames.dropLast (.deleteType ⟨7⟩) t r (List.prefix_refl _) hw rfl
    hok).1 hsame hst

end Session

end ConceptGraph
