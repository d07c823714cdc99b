/-
Sessions as state machines: what can happen to one, one event after the other.

- `Event`, `step`, `run`: transactions are begun, worked on, and committed or rolled back; the journal may be told to
  refuse, and identifiers may be drawn by other users of the same source. What makes no sense changes nothing, such as
  to begin a transaction while one is open.
- `step_commit`, `step_commit_idle` and the like: what each event does while a transaction is open, and while none is.
- `issued`: how many identifiers have been handed out by the end of a run, those of the meta types included.
- `Sound`: the committed state is sound, and so is the open transaction if there is one. `run_sound` says that this is so
  after any run from the start, as long as identifiers last.
- `run_everywhere`, `everywhere_iff`: what every operation keeps holds of all states along a run; and what only some
  operations break does so if and only if these do not take place.
-/
import ConceptGraph.Proofs.Transaction.Performing
import ConceptGraph.Session.Basic

namespace ConceptGraph

open Std

/-! ## An empty keyspace -/

namespace MetaTypes

/-- the five identifiers in a row, and the one after them -/
theorem take_offsets (first : UInt64) :
    (take ⟨first⟩).1.toList = (List.range 5).map (fun i => ⟨first + UInt64.ofNat i⟩) ∧
      (take ⟨first⟩).2.next = first + UInt64.ofNat 5 := by
  have h : ∀ k, first + UInt64.ofNat (k + 1) = first + UInt64.ofNat k + 1 := fun k => (next_offset first k).symm
  have h0 : first + UInt64.ofNat 0 = first := UInt64.add_zero first
  constructor
  · show _ = [0, 1, 2, 3, 4].map fun i => (⟨first + UInt64.ofNat i⟩ : TypeId)
    simp only [List.map_cons, List.map_nil, h, h0]
    rfl
  · simp only [h, h0]
    rfl

theorem nodup_take (first : UInt64) : (take ⟨first⟩).1.toList.Nodup := by
  rw [(take_offsets first).1]
  refine List.Nodup.map_on (fun i hi j hj hij => ?_) List.nodup_range
  rw [List.mem_range] at hi hj
  have := toNat_offset first (k := i) (by omega)
  rwa [TypeId.mk.inj hij, toNat_offset first (by omega), eq_comm] at this

end MetaTypes

namespace State

theorem bare?_empty (id : ThingId) : Graph.empty.bare? id = none := by
  rw [Graph.bare?, Graph.get?, Graph.empty, ExtTreeMap.getElem?_empty]
  rfl

/-- an empty keyspace is sound -/
theorem bootstrap_sound (first : UInt64) : (⟨.bootstrap (MetaTypes.take ⟨first⟩).1, .empty⟩ : State).Sound first 5 := by
  have hm := MetaTypes.nodup_take first
  have hnone : ∀ {id b}, Graph.empty.bare? id = some b → False := fun h => by simp [bare?_empty] at h
  refine ⟨Schema.bootstrap_coherent hm, Schema.bootstrap_recorded hm, ?_, Graph.empty_indexed, Graph.empty_closed, ?_, ?_,
    fun id b hb => (hnone hb).elim⟩
  · intro t a b v w _ _ hv
    obtain ⟨d, hd, hdv⟩ := Option.bind_eq_some_iff.1 hv
    rw [(Schema.bootstrap_bare hm hd).dataType?_eq] at hdv
    simp at hdv
  · exact ⟨fun _ _ hb => (hnone hb).elim, fun _ _ _ hb => (hnone hb).elim, fun _ _ _ hb => (hnone hb).elim,
      fun _ _ _ _ hb => (hnone hb).elim, fun _ _ _ _ hb => (hnone hb).elim, fun _ _ _ _ _ hb => (hnone hb).elim,
      fun _ _ _ hb => (hnone hb).elim⟩
  · intro t d hd
    have ht := Schema.mem_of_bootstrap hm hd
    rw [(MetaTypes.take_offsets first).1, List.mem_map] at ht
    obtain ⟨i, hi, rfl⟩ := ht
    rw [List.mem_range] at hi
    exact (issued_offset (by omega)).2 hi

end State

/-! ## Events -/

/-- what can happen to a session -/
inductive Event where
  | begin
  | perform (op : Operation)
  | commit (now : UtcTime)
  | rollback
  | rejectNextCommit
  /-- someone else draws identifiers from the same source -/
  | drawElsewhere (count : UInt64)
  deriving DecidableEq, Repr

namespace Session

/-- the session after so many identifiers have been drawn elsewhere -/
def skip (s : Session) (count : UInt64) : Session :=
  match s.writer with
  | some t => { s with writer := some { t with ids := ⟨t.ids.next + count⟩ } }
  | none => { s with ids := ⟨s.ids.next + count⟩ }

/-- the session after one event -/
def step (s : Session) : Event → Session
  | .begin => (s.begin?.map Prod.snd).getD s
  | .perform op => ((s.edit op.perform).map Prod.snd).getD s
  | .commit now => ((s.commit now).map Prod.snd).getD s
  | .rollback => s.rollback
  | .rejectNextCommit => { s with journal := s.journal.map Journal.rejectNextCommit }
  | .drawElsewhere count => s.skip count

/-- the session after one event after the other -/
def run (s : Session) (es : List Event) : Session := es.foldl step s

/-- where the next identifier comes from -/
def source (s : Session) : IdSource :=
  match s.writer with
  | some t => t.ids
  | none => s.ids

/-- how many identifiers the event draws -/
def drawnBy (s : Session) (e : Event) : Nat := ((s.step e).source.next - s.source.next).toNat

/-- how many identifiers are drawn in a run -/
def drawn (s : Session) : List Event → Nat
  | [] => 0
  | e :: es => s.drawnBy e + (s.step e).drawn es

/-- how many identifiers have been handed out after a run from the start, where five were taken for the meta types -/
def issued (s : Session) (es : List Event) : Nat := 5 + s.drawn es

variable {first : UInt64} {n : Nat} {s : Session} {t : Transaction} {es : List Event}

/-! ## Runs -/

theorem run_cons (s : Session) (e : Event) (es : List Event) : s.run (e :: es) = (s.step e).run es := rfl

theorem run_append (s : Session) (es es' : List Event) : s.run (es ++ es') = (s.run es).run es' := List.foldl_append

theorem run_concat (s : Session) (es : List Event) (e : Event) : s.run (es ++ [e]) = (s.run es).step e := run_append s es [e]

/-- what every event of a run keeps holds at any time during the run -/
theorem run_induction {P : Session → Prop} (h : P s)
    (hstep : ∀ p e, p ++ [e] <+: es → P (s.run p) → P ((s.run p).step e)) {p : List Event} (hp : p <+: es) :
    P (s.run p) := by
  induction p using List.reverseRecOn with
  | nil => exact h
  | append_singleton p e ih =>
    rw [run_concat]
    exact hstep p e hp (ih ((List.prefix_append p [e]).trans hp))

theorem drawn_append (s : Session) (es es' : List Event) : s.drawn (es ++ es') = s.drawn es + (s.run es).drawn es' := by
  induction es generalizing s with
  | nil => simp [drawn, run]
  | cons e es ih => rw [List.cons_append, drawn, drawn, ih, run_cons, Nat.add_assoc]

theorem issued_concat (s : Session) (es : List Event) (e : Event) :
    s.issued (es ++ [e]) = s.issued es + (s.run es).drawnBy e := by
  rw [issued, issued, drawn_append, Nat.add_assoc]
  rfl

theorem issued_le {es' : List Event} (h : es' <+: es) : s.issued es' ≤ s.issued es := by
  obtain ⟨r, rfl⟩ := h
  rw [issued, issued, drawn_append]
  omega

/-! ## One event -/

theorem step_begin (hw : s.writer = some t) : s.step .begin = s := by
  rw [step, begin?, hw]
  rfl

theorem step_begin_idle (hw : s.writer = none) :
    s.step .begin = { s.newTransaction.2 with writer := some s.newTransaction.1 } := by
  rw [step, begin?, hw]
  rfl

theorem step_perform (hw : s.writer = some t) (op : Operation) :
    s.step (.perform op) = { s with writer := some (t.perform op).2 } := by
  rw [step, edit, hw]
  rfl

theorem step_perform_idle (hw : s.writer = none) (op : Operation) : s.step (.perform op) = s := by
  rw [step, edit, hw]
  rfl

theorem commit_of_writer (hw : s.writer = some t) (now : UtcTime) : s.commit now = some (s.finish t now) := by
  rw [commit, hw, Option.map_some]

theorem commit_idle (hw : s.writer = none) (now : UtcTime) : s.commit now = none := by rw [commit, hw, Option.map_none]

theorem step_commit (hw : s.writer = some t) (now : UtcTime) : s.step (.commit now) = (s.finish t now).2 := by
  rw [step, commit_of_writer hw]
  rfl

theorem step_commit_idle (hw : s.writer = none) (now : UtcTime) : s.step (.commit now) = s := by
  rw [step, commit_idle hw]
  rfl

theorem step_rollback (hw : s.writer = some t) : s.step .rollback = s.discard t := by rw [step, rollback, hw]

theorem step_rollback_idle (hw : s.writer = none) : s.step .rollback = s := by rw [step, rollback, hw]

theorem step_drawElsewhere (hw : s.writer = some t) (count : UInt64) :
    s.step (.drawElsewhere count) = { s with writer := some { t with ids := ⟨t.ids.next + count⟩ } } := by
  rw [step, skip, hw]

theorem step_drawElsewhere_idle (hw : s.writer = none) (count : UInt64) :
    s.step (.drawElsewhere count) = { s with ids := ⟨s.ids.next + count⟩ } := by
  rw [step, skip, hw]

/-- where no transaction is open, nothing else opens one -/
theorem writer_step_idle {e : Event} (hw : s.writer = none) (he : e ≠ .begin) : (s.step e).writer = none := by
  cases e with
  | begin => exact absurd rfl he
  | perform op => rwa [step_perform_idle hw]
  | commit now => rwa [step_commit_idle hw]
  | rollback => rwa [step_rollback_idle hw]
  | rejectNextCommit => exact hw
  | drawElsewhere count =>
    rw [step_drawElsewhere_idle hw]
    exact hw

/-! ## Identifiers that are drawn -/

theorem source_of_writer (hw : s.writer = some t) : s.source = t.ids := by rw [source, hw]

theorem source_of_idle (hw : s.writer = none) : s.source = s.ids := by rw [source, hw]

theorem drawnBy_perform (hw : s.writer = some t) (op : Operation) :
    s.drawnBy (.perform op) = Transaction.drawn t (t.perform op).2 := by
  rw [drawnBy, step_perform hw, source_of_writer hw]
  rfl

/-! ## Commits -/

/-- a commit leaves the session as it is without the transaction, but for the committed state and the journal -/
theorem finish_discards (s : Session) (t : Transaction) (now : UtcTime) :
    ∃ committed journal, (s.finish t now).2 = { s.discard t with committed := committed, journal := journal } := by
  unfold finish
  split
  · exact ⟨_, _, rfl⟩
  · split
    · exact ⟨_, _, rfl⟩
    · split <;> exact ⟨_, _, rfl⟩

/-- a transaction is published under its number, or gone without one -/
theorem finish_cases (s : Session) (t : Transaction) (now : UtcTime) : (s.finish t now).2.writer = none ∧
    ((s.finish t now).1 = .ok t.id ∧ (s.finish t now).2.committed = t.working ∨
      (∀ txn, (s.finish t now).1 ≠ .ok txn) ∧ (s.finish t now).2.committed = s.committed) := by
  unfold finish
  split
  · exact ⟨rfl, Or.inr ⟨nofun, rfl⟩⟩
  · split
    · exact ⟨rfl, Or.inl ⟨rfl, rfl⟩⟩
    · split
      · exact ⟨rfl, Or.inl ⟨rfl, rfl⟩⟩
      · exact ⟨rfl, Or.inr ⟨nofun, rfl⟩⟩
      · exact ⟨rfl, Or.inr ⟨nofun, rfl⟩⟩

/-! ## The states of a session -/

/-- the committed state has the property, and so has every state of the open transaction -/
structure Everywhere (P : State → Prop) (s : Session) : Prop where
  committed : P s.committed
  writer : ∀ t, s.writer = some t → t.Everywhere P

theorem Everywhere.idle {P : State → Prop} (hc : P s.committed) (hw : s.writer = none) : s.Everywhere P := by
  refine ⟨hc, fun t ht => ?_⟩
  rw [hw] at ht
  simp at ht

theorem Everywhere.active {P : State → Prop} (hc : P s.committed) (hw : s.writer = some t) (ht : t.Everywhere P) :
    s.Everywhere P := by
  refine ⟨hc, fun t' ht' => ?_⟩
  rwa [← Option.some.inj (hw.symm.trans ht')]

theorem Everywhere.imp {P Q : State → Prop} (h : s.Everywhere P) (hpq : ∀ x, P x → Q x) : s.Everywhere Q :=
  ⟨hpq _ h.committed, fun t ht => (h.writer t ht).imp hpq⟩

theorem Everywhere.and {P Q : State → Prop} (h : s.Everywhere P) (h' : s.Everywhere Q) :
    s.Everywhere fun x => P x ∧ Q x :=
  ⟨⟨h.committed, h'.committed⟩, fun t ht => (h.writer t ht).and (h'.writer t ht)⟩

/-- **One event** leads to no state that is not there already, unless it is an operation. -/
theorem step_everywhere {P : State → Prop} (h : s.Everywhere P) (e : Event)
    (hop : ∀ op t, e = .perform op → s.writer = some t → (t.perform op).2.Everywhere P) : (s.step e).Everywhere P := by
  cases hw : s.writer with
  | none =>
    cases e with
    | begin =>
      rw [step_begin_idle hw]
      exact .active h.committed rfl ⟨h.committed, fun name sp hsp => by simp [newTransaction, Transaction.begun] at hsp⟩
    | perform op => rwa [step_perform_idle hw]
    | commit now => rwa [step_commit_idle hw]
    | rollback => rwa [step_rollback_idle hw]
    | rejectNextCommit => exact .idle h.committed hw
    | drawElsewhere count =>
      rw [step_drawElsewhere_idle hw]
      exact .idle h.committed hw
  | some t =>
    have ht := h.writer t hw
    cases e with
    | begin => rwa [step_begin hw]
    | perform op =>
      rw [step_perform hw]
      exact .active h.committed rfl (hop op t rfl hw)
    | commit now =>
      rw [step_commit hw]
      obtain ⟨hnone, hc⟩ := s.finish_cases t now
      rcases hc with ⟨-, hc⟩ | ⟨-, hc⟩
      · exact .idle (hc ▸ ht.working) hnone
      · exact .idle (hc ▸ h.committed) hnone
    | rollback =>
      rw [step_rollback hw]
      exact .idle h.committed rfl
    | rejectNextCommit => exact .active h.committed hw ht
    | drawElsewhere count =>
      rw [step_drawElsewhere hw]
      exact .active h.committed rfl ⟨ht.working, ht.savepoints⟩

/-! ## Soundness -/

/-- what holds of a session at all times, after `n` identifiers have been handed out from `first` on -/
structure Sound (first : UInt64) (n : Nat) (s : Session) : Prop where
  states : s.Everywhere fun x => x.Sound first n
  source : s.source.next = first + UInt64.ofNat n

theorem Sound.writer (h : s.Sound first n) (hw : s.writer = some t) : t.Sound first n := by
  have ht := h.states.writer t hw
  refine ⟨?_, ht.working, ht.savepoints⟩
  rw [← source_of_writer hw, h.source]

/-- **One event** keeps a session sound. -/
theorem step_sound (h : s.Sound first n) (e : Event) (hfit : n + s.drawnBy e < 2 ^ 64) :
    (s.step e).Sound first (n + s.drawnBy e) := by
  have hle : n ≤ n + s.drawnBy e := Nat.le_add_right _ _
  refine ⟨step_everywhere ⟨h.states.committed.mono hle, fun t hw => (h.writer hw).everywhere hle⟩ e ?_, ?_⟩
  · rintro op t rfl hw
    rw [drawnBy_perform hw] at hfit ⊢
    exact (Transaction.perform_sound (h.writer hw) op hfit).everywhere (Nat.le_refl _)
  · rw [UInt64.ofNat_add, ← UInt64.add_assoc, ← h.source, drawnBy, UInt64.ofNat_toNat, UInt64.add_comm,
      UInt64.sub_add_cancel]

theorem run_sound_from (h : s.Sound first n) (es : List Event) (hfit : n + s.drawn es < 2 ^ 64) :
    (s.run es).Sound first (n + s.drawn es) := by
  induction es generalizing s n with
  | nil => exact h
  | cons e es ih =>
    rw [drawn, ← Nat.add_assoc] at hfit ⊢
    exact ih (step_sound h e (by omega)) hfit

/-! ## The start -/

/-- the first identifier of a session -/
def firstId (config : SessionConfig) (ids : Option IdSource) : UInt64 := (ids.getD ⟨config.firstConceptId⟩).next

/-- a session starts with what it was given, on an empty keyspace, with no transaction open -/
theorem start_eq {config : SessionConfig} {ids : Option IdSource} {journal : Option Journal}
    (h : start config ids journal = .ok s) : s = ⟨config, (MetaTypes.take ⟨firstId config ids⟩).2, journal,
      ⟨.bootstrap (MetaTypes.take ⟨firstId config ids⟩).1, .empty⟩, 1, none⟩ := by
  unfold start at h
  cases hv : config.validate with
  | error e => simp [hv] at h
  | ok u =>
    simp only [hv] at h
    exact (Except.ok.inj h).symm

theorem start_spec {config : SessionConfig} {ids : Option IdSource} {journal : Option Journal}
    (h : start config ids journal = .ok s) :
    s.committed = ⟨.bootstrap (MetaTypes.take ⟨firstId config ids⟩).1, .empty⟩ ∧ s.writer = none ∧
      s.ids.next = firstId config ids + UInt64.ofNat 5 := by
  obtain rfl := start_eq h
  exact ⟨rfl, rfl, (MetaTypes.take_offsets _).2⟩

theorem start_sound {config : SessionConfig} {ids : Option IdSource} {journal : Option Journal}
    (h : start config ids journal = .ok s) : s.Sound (firstId config ids) 5 := by
  obtain ⟨hc, hw, hids⟩ := start_spec h
  refine ⟨.idle ?_ hw, by rwa [source_of_idle hw]⟩
  rw [hc]
  exact State.bootstrap_sound _

section Started

variable {config : SessionConfig} {ids : Option IdSource} {journal : Option Journal} {p : List Event} {op : Operation}
  (h : start config ids journal = .ok s) (hfit : s.issued es < 2 ^ 64)

include hfit

/-- while a run lasts, identifiers do -/
theorem fits_during (hw : (s.run p).writer = some t) (hp : p ++ [.perform op] <+: es) :
    s.issued p + Transaction.drawn t (t.perform op).2 < 2 ^ 64 := by
  calc s.issued p + Transaction.drawn t (t.perform op).2 = s.issued (p ++ [.perform op]) := by
        rw [← drawnBy_perform hw, ← issued_concat]
    _ ≤ s.issued es := issued_le hp
    _ < 2 ^ 64 := hfit

include h

/-- **Any run** from the start leads to sound sessions, as long as identifiers last. -/
theorem run_sound (hp : p <+: es) : (s.run p).Sound (firstId config ids) (s.issued p) :=
  run_sound_from (start_sound h) p (Nat.lt_of_le_of_lt (issued_le hp) hfit)

/-- the open transaction at some time during a run -/
theorem writer_sound {e : Event} (hp : p ++ [e] <+: es) (hw : (s.run p).writer = some t) :
    t.Sound (firstId config ids) (s.issued p) :=
  (run_sound h hfit ((List.prefix_append p [e]).trans hp)).writer hw

omit hfit in
/-- **An invariant** of states holds at any time during a run, if it does of an empty keyspace and every operation
keeps it. -/
theorem run_everywhere {P : State → Prop} (hempty : P ⟨.bootstrap (MetaTypes.take ⟨firstId config ids⟩).1, .empty⟩)
    (hop : ∀ p op t, p ++ [.perform op] <+: es → (s.run p).writer = some t → t.Everywhere P →
      (t.perform op).2.Everywhere P) (hp : p <+: es) : (s.run p).Everywhere P := by
  refine run_induction (P := fun s => s.Everywhere P) ?_ (fun p e hp h => ?_) hp
  · obtain ⟨hc, hw, -⟩ := start_spec h
    exact .idle (hc ▸ hempty) hw
  · refine step_everywhere h e ?_
    rintro op t rfl hw
    exact hop p op t hp hw (h.writer t hw)

/-- **An invariant that some operations break** holds at any time during a run if and only if none of them takes place,
if each of them breaks it and all others keep it. -/
theorem everywhere_iff {P : State → Prop} {breaks : Operation → Transaction → Prop}
    (hempty : P ⟨.bootstrap (MetaTypes.take ⟨firstId config ids⟩).1, .empty⟩)
    (hkeep : ∀ n op t, t.Sound (firstId config ids) n → n + Transaction.drawn t (t.perform op).2 < 2 ^ 64 →
      t.Everywhere P → ¬ breaks op t → (t.perform op).2.Everywhere P)
    (hbreak : ∀ n op t, t.Sound (firstId config ids) n → n + Transaction.drawn t (t.perform op).2 < 2 ^ 64 →
      breaks op t → ¬ P (t.perform op).2.working) :
    (∀ p, p <+: es → (s.run p).Everywhere P) ↔
      ∀ p e, p ++ [e] <+: es → ¬ ∃ op t, e = .perform op ∧ (s.run p).writer = some t ∧ breaks op t := by
  constructor
  · rintro hall p e hp ⟨op, t, rfl, hw, hop⟩
    have hw' : (s.run (p ++ [.perform op])).writer = some (t.perform op).2 := by rw [run_concat, step_perform hw]
    exact hbreak _ op t (writer_sound h hfit hp hw) (fits_during hfit hw hp) hop ((hall _ hp).writer _ hw').working
  · intro hno p hp
    refine run_everywhere h hempty (fun p op t hp hw ht => ?_) hp
    exact hkeep _ op t (writer_sound h hfit hp hw) (fits_during hfit hw hp) ht
      fun hop => hno p _ hp ⟨op, t, rfl, hw, hop⟩

end Started

/-- a session on an empty keyspace, with the settings for tests -/
def blank : Session := ⟨.testing, ⟨6⟩, none, ⟨.bootstrap ⟨⟨1⟩, ⟨2⟩, ⟨3⟩, ⟨4⟩, ⟨5⟩⟩, .empty⟩, 1, none⟩

theorem start_testing : start .testing none none = .ok blank := rfl

end Session

end ConceptGraph
