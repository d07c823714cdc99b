/-
Instances and the types they are of.

- `WellTyped`: each instance is of a type that is defined and of its kind, and so is each role that has a player. In a
  sound state that is so as soon as no instance is without a type (`wellTyped_iff_typed`).
- `Strands`: an attribute type is deleted with the relation type that records who holds the attributes, while there are
  such relations: only the instances of the attribute type itself have been looked for. They are not there any more when
  the attributes are of a subtype that has been moved away since.
- `Session.well_typed_iff`: all states that a session goes through are well typed if and only if it never does that.
-/
import ConceptGraph.Proofs.Session.Runs

namespace ConceptGraph

open Std

namespace State

/-- each instance and each role that has a player are of a type that is defined, and of the right kind -/
structure WellTyped (s : State) : Prop where
  things : ∀ id th, s.graph.get? id = some th → s.schema.HasKind th.type th.kind
  roles : ∀ id th, s.graph.get? id = some th → ∀ rp ∈ th.rolePlayers, s.schema.HasKind rp.role .role

/-- no instance is without a type -/
def Typed (s : State) : Prop := ∀ id b, s.graph.bare? id = some b → ∃ d, s.schema.get? b.type = some d

variable {s s' : State} {first : UInt64} {n k : Nat}

theorem typed_iff : s.Typed ↔ ∀ i ∈ s.graph.things.toList, (s.schema.get? i.2.type).isSome := by
  simp only [Typed, Graph.bare?, Option.map_eq_some_iff, Option.isSome_iff_exists]
  constructor
  · rintro h ⟨id, th⟩ hi
    have hd := h id th.bare ⟨th, ExtTreeMap.mem_toList_iff_getElem?_eq_some.1 hi, rfl⟩
    rwa [Thing.bare_type] at hd
  · rintro h id _ ⟨th, hth, rfl⟩
    rw [Thing.bare_type]
    exact h (id, th) (ExtTreeMap.mem_toList_iff_getElem?_eq_some.2 hth)

instance (s : State) : Decidable s.Typed := decidable_of_iff _ typed_iff.symm

theorem Sound.wellTyped_iff_typed (h : s.Sound first n) : s.WellTyped ↔ s.Typed := by
  constructor
  · intro hw id b hb
    obtain ⟨th, hth, rfl⟩ := Graph.get?_of_bare? hb
    obtain ⟨d, hd, -⟩ := hw.things id th hth
    exact ⟨d, by rwa [Thing.bare_type]⟩
  · intro ht
    refine ⟨fun id th hth => ?_, fun id th hth rp hrp => ?_⟩
    · have hb := Graph.bare?_of_get? hth
      rcases h.instances.typed id _ hb with hk | ⟨hnone, -⟩
      · rwa [Thing.bare_type, Thing.kind_bare] at hk
      · obtain ⟨d, hd⟩ := ht id _ hb
        rw [hnone] at hd
        simp at hd
    · have hb := Graph.bare?_of_get? hth
      have hp : s.graph.Plays id rp.role rp.player := (Graph.plays_iff hth).2 hrp
      cases hq : s.schema.implicitForRelation? th.bare.type with
      | none =>
        have hrel := h.instances.related id _ _ _ hb ⟨ht id _ hb, hq⟩ hp
        obtain ⟨a, -, d, hd, hrole⟩ := Schema.relatesRole_iff.1 hrel
        exact (h.coherent.refs a d hd).relates _ hrole
      | some q =>
        obtain ⟨d, hback⟩ := h.recorded.backed q ((h.recorded.byRelation _ q).1 hq).1
        obtain ⟨o, a, -, hplays⟩ := h.instances.edges id _ q hb hq
        rcases (hplays _ _).1 hp with ⟨hrole, -⟩ | ⟨hrole, -⟩
        · exact ⟨_, hrole ▸ hback.ownerRole, rfl⟩
        · exact ⟨_, hrole ▸ hback.valueRole, rfl⟩

/-- an edit of the schema leaves no instance without a type, unless there are instances of a type that goes along -/
theorem SchemaStep.typed {lost : TypeId → Prop} (h : SchemaStep first n k lost s s') (ht : s.Typed)
    (hlost : ∀ id b, s.graph.bare? id = some b → ¬ lost b.type) : s'.Typed := by
  intro id b hb
  rw [h.graph] at hb
  exact h.types id b hb (hlost id b hb) (ht id b hb)

theorem GraphStep.typed {gone : ThingId → ThingId → Prop} (h : GraphStep first n k gone s s') (ht : s.Typed) :
    s'.Typed := by
  intro id b hb
  rw [h.schema]
  exact (h.types id b hb).elim (ht id b) fun hd => hd

end State

/-- the operation deletes an attribute type while there are relations that record who holds its attributes -/
def Operation.Strands (op : Operation) (t : Transaction) : Prop :=
  ∃ a r q, op = .deleteType a ∧ (t.perform op).1 = .ok r ∧ t.working.schema.implicitForOwned? a = some q ∧
    0 < t.working.graph.countOfType q.relation

/-- the event is such an operation in the open transaction -/
def Event.Strands (e : Event) (s : Session) : Prop := ∃ op t, e = .perform op ∧ s.writer = some t ∧ op.Strands t

namespace Transaction

variable {first : UInt64} {n : Nat} {t t' : Transaction} {op : Operation} {r : Reply}

/-- an instance of a type that the operation loses is one that it strands -/
theorem strands_of_loses (h : t.Sound first n) (hok : (t.perform op).1 = .ok r) {id : ThingId} {b : Thing}
    (hb : t.working.graph.bare? id = some b) (hl : op.Loses t.working b.type) : op.Strands t := by
  cases op with
  | deleteType a =>
    obtain ⟨q, hq, hbq⟩ := hl
    exact ⟨a, r, q, rfl, hok, hq, (Graph.countOfType_pos h.working.indexed).2 ⟨id, b, hb, hbq⟩⟩
  | _ => exact hl.elim

/-- what is stranded: a relation without a type, which recorded an ownership -/
theorem stranded (h : t.Sound first n) (hfit : n + drawn t (t.perform op).2 < 2 ^ 64) (hop : op.Strands t) :
    ∃ id q o a, t.working.Edge q id o a ∧ SchemaDone first n (op.Loses t.working) t (t.perform op).2 ∧
      ∀ b, t.working.graph.bare? id = some b → op.Loses t.working b.type := by
  obtain ⟨a, r, q, rfl, hok, hq, hcount⟩ := hop
  obtain ⟨id, b, hb, hbq⟩ := (Graph.countOfType_pos h.working.indexed).1 hcount
  have hrec := h.working.recorded.implicitForOwned?.1 hq
  have hrel : t.working.schema.implicitForRelation? b.type = some q :=
    (h.working.recorded.byRelation _ q).2 ⟨hrec.1, hbq.symm⟩
  obtain ⟨o, x, hedge, -⟩ := h.working.instances.edge hb hrel
  refine ⟨id, q, o, x, hedge, (performed_of_ok h hfit hok).schemaDone rfl, fun c hc => ?_⟩
  obtain rfl := Option.some.inj (hb.symm.trans hc)
  exact ⟨q, hq, hbq⟩

/-- **Types stay** with their instances, unless the operation strands some. -/
theorem perform_typed (h : t.Sound first n) (hfit : n + drawn t (t.perform op).2 < 2 ^ 64)
    (ht : t.Everywhere State.Typed) (hop : ¬ op.Strands t) : (t.perform op).2.Everywhere State.Typed := by
  rcases perform_cases h op hfit with ⟨err, heq⟩ | ⟨r, t', heq, hp⟩ | ⟨err, graph', -, heq, hstep, -⟩
  · rwa [heq]
  · rw [heq]
    refine hp.everywhere ht ?_ ?_
    · rintro - ⟨k, -, -, -, hstep⟩
      exact hstep.typed ht.working fun id b hb hl => hop (strands_of_loses h (by rw [heq]) hb hl)
    · rintro - ⟨k, -, -, -, hstep⟩
      exact hstep.typed ht.working
  · rw [heq]
    exact ⟨hstep.typed ht.working, ht.savepoints⟩

theorem not_typed_of_strands (h : t.Sound first n) (hfit : n + drawn t (t.perform op).2 < 2 ^ 64)
    (hop : op.Strands t) : ¬ (t.perform op).2.working.Typed := by
  obtain ⟨id, q, o, a, hedge, ⟨k, -, -, -, hstep⟩, hlost⟩ := stranded h hfit hop
  obtain ⟨b, hb, -⟩ := hedge.relation
  intro ht
  obtain ⟨d, hd⟩ := ht id b (by rw [hstep.graph, hb])
  rw [(hstep.lost _ (hlost b hb)).1] at hd
  simp at hd

end Transaction

namespace Session

variable {config : SessionConfig} {ids : Option IdSource} {journal : Option Journal} {s : Session} {es : List Event}
  {first : UInt64} {n : Nat}

/-- the committed state and that of the open transaction are well typed -/
structure WellTyped (s : Session) : Prop where
  committed : s.committed.WellTyped
  working : ∀ t, s.writer = some t → t.working.WellTyped

theorem Sound.wellTyped_of_typed (h : s.Sound first n) (ht : s.Everywhere State.Typed) : s.WellTyped :=
  ⟨h.states.committed.wellTyped_iff_typed.2 ht.committed,
    fun t hw => (h.writer hw).working.wellTyped_iff_typed.2 (ht.writer t hw).working⟩

/-- a person who holds a nick, as a name, and nicks that are no names any more by the time that names are deleted -/
def strandingNames : List Event :=
  [.begin, .perform (.putEntityType "person"), .perform (.putAttributeType "name" (some .string)),
    .perform (.putAttributeType "nick" (some .string)), .perform (.setSupertype ⟨8⟩ ⟨7⟩), .perform (.has ⟨6⟩ ⟨7⟩),
    .perform (.createEntity ⟨6⟩), .perform (.putAttribute ⟨8⟩ (.string "x")), .perform (.setHas ⟨12⟩ ⟨13⟩),
    .perform (.has ⟨6⟩ ⟨8⟩), .perform (.setSupertype ⟨8⟩ ⟨4⟩), .perform (.deleteType ⟨7⟩)]

set_option maxRecDepth 10000 in
theorem strandingNames_strands : ∃ t, (blank.run strandingNames.dropLast).writer = some t ∧
    (Operation.deleteType ⟨7⟩).Strands t := by
  have hlast : (blank.run strandingNames.dropLast).writer.map (fun t =>
      ((t.perform (.deleteType ⟨7⟩)).1.toOption, (t.working.schema.implicitForOwned? ⟨7⟩).map fun q =>
        t.working.graph.countOfType q.relation)) = some (some .done, some 1) := by decide +kernel
  obtain ⟨t, hw, ht⟩ := Option.map_eq_some_iff.1 hlast
  obtain ⟨hok, hcount⟩ := Prod.mk.inj ht
  obtain ⟨q, hq, hcount⟩ := Option.map_eq_some_iff.1 hcount
  refine ⟨t, hw, ⟨7⟩, .done, q, rfl, ?_, hq, by omega⟩
  cases hr : (t.perform (.deleteType ⟨7⟩)).1 with
  | ok r =>
    rw [hr] at hok
    rw [Option.some.inj hok]
  | error err =>
    rw [hr] at hok
    cases hok

/-- **No instance outlives its type**, if and only if no attribute type is ever deleted while there are relations that
record who holds its attributes. -/
theorem well_typed_iff (hs : start config ids journal = .ok s) (hfit : s.issued es < 2 ^ 64) :
    (∀ p, p <+: es → (s.run p).WellTyped) ↔ ∀ p e, p ++ [e] <+: es → ¬ e.Strands (s.run p) := by
  constructor
  · rintro hall p e hp ⟨op, t, rfl, hw, hop⟩
    have hw' : (s.run (p ++ [.perform op])).writer = some (t.perform op).2 := by rw [run_concat, step_perform hw]
    have ht' := (run_sound hs hfit hp).writer hw'
    exact Transaction.not_typed_of_strands (writer_sound hs hfit hp hw) (fits_during hfit hw hp) hop
      (ht'.working.wellTyped_iff_typed.1 ((hall _ hp).working _ hw'))
  · intro hno p hp
    refine (run_sound hs hfit hp).wellTyped_of_typed (run_induction (P := fun s => s.Everywhere State.Typed) ?_ ?_ hp)
    · obtain ⟨hc, hw, -⟩ := start_spec hs
      refine .idle ?_ hw
      rw [hc]
      exact fun id b hb => by simp [State.bare?_empty] at hb
    · intro p e hp ht
      apply step_everywhere ht e
      intro op t he hw
      subst he
      exact Transaction.perform_typed (writer_sound hs hfit hp hw) (fits_during hfit hw hp) (ht.writer t hw)
        fun hop => hno p _ hp ⟨op, t, rfl, hw, hop⟩

theorem not_well_typed : blank.issued strandingNames < 2 ^ 64 ∧
    ¬ ∀ p, p <+: strandingNames → (blank.run p).WellTyped := by
  have hfit : blank.issued strandingNames < 2 ^ 64 := by decide +kernel
  obtain ⟨t, hw, hst⟩ := strandingNames_strands
  exact ⟨hfit, fun hall => (well_typed_iff start_testing hfit).1 hall strandingNames.dropLast _ (List.prefix_refl _)
    ⟨_, t, rfl, hw, hst⟩⟩

end Session

end ConceptGraph
