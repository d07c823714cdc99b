/-
The journal and the committed state, which change together and only when a commit is done.

- `Publication`: what a commit that is done makes public; `Session.publications`: those of a run, in order.
- `Session.submitted`: the entries that the commits of a run put to the journal. The run extends the journal by them, as far
  as there is room (`journaled_run`); if there is room for all, they are the blocks of the publications, and no commit
  breaks off (`submitted_of_fits`).
- `Lockstep`: the committed state is the last one that was published, and transactions are numbered in the order in which
  they are opened. Each event keeps that (`lockstep_step`).
- `Session.journal_in_lockstep`: the records are the blocks of the publications after any run from the start with an empty
  journal, and an event that is not a commit answered by a number leaves records and committed state as they are.
-/
import ConceptGraph.Proofs.Journal.Numbering
import ConceptGraph.Proofs.Transaction.EditContexts
import ConceptGraph.Proofs.Session.Runs

namespace ConceptGraph

/-- what a commit makes public: a transaction with its mutations, and the state that they led to -/
structure Publication where
  txn : TxnId
  mutations : List Mutation
  time : UtcTime
  state : State

/-- what a publication looks like in a journal -/
def Publication.block (p : Publication) : List JournalEntry :=
  [.begun p.txn] ++ p.mutations.map (.applied p.txn) ++ [.committed p.txn p.time]

namespace Session

variable {s s' : Session} {t : Transaction} {ps : List Publication} {n : Nat}

/-! ## Publications -/

/-- what the event publishes: the open transaction as it is, if it is committed and the commit is answered by a number -/
def publishes? (s : Session) : Event → Option Publication
  | .commit now =>
    match s.writer, s.commit now with
    | some t, some (.ok txn, _) => some ⟨txn, t.mutations, now, t.working⟩
    | _, _ => none
  | _ => none

/-- all that is published in a run, in order -/
def publications (s : Session) : List Event → List Publication
  | [] => []
  | e :: es => (s.publishes? e).toList ++ (s.step e).publications es

/-- whether the event opens a transaction -/
def opens (s : Session) : Event → Bool
  | .begin => s.writer.isNone
  | _ => false

/-- how many transactions are opened in a run -/
def opened (s : Session) : List Event → Nat
  | [] => 0
  | e :: es => (s.opens e).toNat + (s.step e).opened es

/-- only a commit that is answered by a number publishes anything -/
theorem publishes?_eq_none {e : Event} (h : ∀ now txn s', e = .commit now → s.commit now ≠ some (.ok txn, s')) :
    s.publishes? e = none := by
  cases e with
  | commit now =>
    cases hc : s.commit now with
    | none => cases hw : s.writer <;> simp [publishes?, hw, hc]
    | some r =>
      obtain ⟨r, s'⟩ := r
      cases r with
      | ok txn => exact absurd hc (h now txn s' rfl)
      | error err => cases hw : s.writer <;> simp [publishes?, hw, hc]
      | brokenOff => cases hw : s.writer <;> simp [publishes?, hw, hc]
  | _ => rfl

theorem nextTxn_finish (s : Session) (t : Transaction) (now : UtcTime) : (s.finish t now).2.nextTxn = s.nextTxn := by
  obtain ⟨_, _, h⟩ := s.finish_discards t now
  rw [h, discard]

/-! ## Submissions -/

/-- the entries that the event puts to the journal: a commit does unless it breaks a key or the journal is to refuse it -/
def submits (s : Session) : Event → List JournalEntry
  | .commit now =>
    match s.writer, s.journal with
    | some t, some j => if (s.commitFault t).isNone then j.submits (.commit t.id t.mutations now) else []
    | _, _ => []
  | _ => []

/-- the entries that the events of a run put to the journal, in order -/
def submitted (s : Session) : List Event → List JournalEntry
  | [] => []
  | e :: es => s.submits e ++ (s.step e).submitted es

theorem submitted_append (s : Session) (es es' : List Event) :
    s.submitted (es ++ es') = s.submitted es ++ (s.run es).submitted es' := by
  induction es generalizing s with
  | nil => rfl
  | cons e es ih => rw [List.cons_append, submitted, submitted, ih, run_cons, List.append_assoc]

theorem submits_commit {j : Journal} (hj : s.journal = some j) (hw : s.writer = some t) (now : UtcTime) :
    s.submits (.commit now) =
      if (s.commitFault t).isNone then j.submits (.commit t.id t.mutations now) else [] := by
  rw [submits, hw, hj]

/-- what a commit does to the journal -/
theorem journal_finish {j : Journal} (hj : s.journal = some j) (t : Transaction) (now : UtcTime) :
    (s.finish t now).2.journal =
      some (if (s.commitFault t).isNone then j.call (.commit t.id t.mutations now) else j) := by
  cases hfault : s.commitFault t with
  | some v =>
    simp only [finish, hfault, discard]
    exact hj
  | none =>
    simp only [finish, hfault, hj, Option.isNone_none, if_true, Journal.call]
    rcases j.commit t.id t.mutations now with ⟨_ | _ | _, j'⟩ <;> rfl

/-- what an event does to the journal -/
theorem journaled_step {j : Journal} (hj : s.journal = some j) (e : Event) :
    ∃ b, (s.step e).journal = some { j.extend ((s.submits e).take j.room) with rejectNext := b } := by
  have hkept : (s.step e).journal = s.journal → s.submits e = [] →
      ∃ b, (s.step e).journal = some { j.extend ((s.submits e).take j.room) with rejectNext := b } := by
    intro hsame hnone
    exact ⟨j.rejectNext, by rw [hsame, hnone, hj, List.take_nil, Journal.extend_nil]⟩
  cases e with
  | commit now =>
    cases hw : s.writer with
    | none => exact hkept (by rw [step_commit_idle hw]) (by rw [submits, hw])
    | some t =>
      rw [step_commit hw, journal_finish hj, submits_commit hj hw]
      split_ifs
      · obtain ⟨b, hcall⟩ := j.call_eq (.commit t.id t.mutations now)
        exact ⟨b, congrArg some hcall⟩
      · exact ⟨j.rejectNext, by rw [List.take_nil, Journal.extend_nil]⟩
  | begin =>
    refine hkept ?_ rfl
    cases hw : s.writer with
    | none =>
      rw [step_begin_idle hw]
      rfl
    | some t => rw [step_begin hw]
  | perform op =>
    refine hkept ?_ rfl
    cases hw : s.writer with
    | none => rw [step_perform_idle hw]
    | some t => rw [step_perform hw]
  | rollback =>
    refine hkept ?_ rfl
    cases hw : s.writer with
    | none => rw [step_rollback_idle hw]
    | some t =>
      rw [step_rollback hw]
      rfl
  | rejectNextCommit =>
    have hnone : s.submits .rejectNextCommit = [] := rfl
    exact ⟨true, by rw [hnone, List.take_nil, Journal.extend_nil, step, hj]; rfl⟩
  | drawElsewhere count =>
    refine hkept ?_ rfl
    cases hw : s.writer with
    | none => rw [step_drawElsewhere_idle hw]
    | some t => rw [step_drawElsewhere hw]

/-- **The journal** of a session is the one that it started with, extended by what has been put to it, as far as there is
room. -/
theorem journaled_run {j : Journal} (hj : s.journal = some j) (es : List Event) :
    ∃ b, (s.run es).journal = some { j.extend ((s.submitted es).take j.room) with rejectNext := b } := by
  induction es generalizing s j with
  | nil => exact ⟨j.rejectNext, by rw [submitted, List.take_nil, Journal.extend_nil]; exact hj⟩
  | cons e es ih =>
    obtain ⟨b, hstep⟩ := journaled_step hj e
    obtain ⟨b', hrun⟩ := ih hstep
    refine ⟨b', ?_⟩
    rw [run_cons, hrun, submitted, ← Journal.extend_take_extend_take]
    rfl

/-- a commit is refused before anything is put to the journal, or answered as far as there is room -/
theorem finish_submits {j : Journal} (hj : s.journal = some j) (hw : s.writer = some t) (now : UtcTime) :
    (s.submits (.commit now) = [] ∧ ∃ err, (s.finish t now).1 = .error err) ∨
    (s.submits (.commit now) = Journal.entriesOf t.id t.mutations now ∧ (s.finish t now).1 =
      if (Journal.entriesOf t.id t.mutations now).length ≤ j.room then .ok t.id else .brokenOff) := by
  rw [submits_commit hj hw]
  cases hfault : s.commitFault t with
  | some v => exact Or.inl ⟨rfl, .constraintViolation v, by simp only [finish, hfault]⟩
  | none =>
    rw [Option.isNone_none, if_pos rfl, Journal.submits]
    cases hreject : j.rejectNext with
    | true =>
      obtain ⟨err, hc⟩ : ∃ err, j.commit t.id t.mutations now = (.error err, { j with rejectNext := false }) :=
        ⟨_, if_pos hreject⟩
      exact Or.inl ⟨rfl, err.toConceptError, by simp only [finish, hfault, hj, hc]⟩
    | false =>
      have hc : j.commit t.id t.mutations now = j.appendAll (Journal.entriesOf t.id t.mutations now) :=
        if_neg (by simp [hreject])
      refine Or.inr ⟨rfl, ?_⟩
      simp only [finish, hfault, hj, hc, Journal.appendAll_eq]
      split_ifs <;> rfl

/-- what an event puts to the journal is what it publishes, if there is room for it; and it comes back then -/
theorem submits_of_fits {j : Journal} (hj : s.journal = some j) {e : Event} (hfit : (s.submits e).length ≤ j.room) :
    s.submits e = (s.publishes? e).toList.flatMap Publication.block ∧
      ∀ now s', e = .commit now → s.commit now ≠ some (.brokenOff, s') := by
  cases e with
  | commit now =>
    suffices h : s.submits (.commit now) = (s.publishes? (.commit now)).toList.flatMap Publication.block ∧
        ∀ s', s.commit now ≠ some (.brokenOff, s') by
      exact ⟨h.1, fun now' s' he => Event.commit.inj he ▸ h.2 s'⟩
    cases hw : s.writer with
    | none => exact ⟨by simp [submits, publishes?, hw], by simp [commit_idle hw]⟩
    | some t =>
      have hc : s.commit now = some ((s.finish t now).1, (s.finish t now).2) := commit_of_writer hw now
      rw [publishes?, hw, hc]
      rcases s.finish_submits hj hw now with ⟨hnone, err, herr⟩ | ⟨hsome, hanswer⟩
      · rw [hnone, herr]
        exact ⟨rfl, by simp⟩
      · rw [hsome] at hfit ⊢
        rw [hanswer, if_pos hfit]
        exact ⟨by simp [Publication.block, Journal.entriesOf], by simp⟩
  | _ => exact ⟨rfl, fun now s' he => by cases he⟩

/-- **While there is room** for all that is put to the journal, that is what is published. -/
theorem submitted_of_fits {j : Journal} (hj : s.journal = some j) {es : List Event}
    (hfit : (s.submitted es).length ≤ j.room) : s.submitted es = (s.publications es).flatMap Publication.block := by
  induction es generalizing s j with
  | nil => rfl
  | cons e es ih =>
    rw [submitted, List.length_append] at hfit
    have hfirst : (s.submits e).length ≤ j.room := by omega
    obtain ⟨b, hstep⟩ := journaled_step hj e
    have hroom := Journal.room_extend hfirst
    rw [List.take_of_length_le hfirst] at hstep
    rw [submitted, publications, List.flatMap_append, (submits_of_fits hj hfirst).1]
    congr 1
    refine ih hstep ?_
    show _ ≤ (j.extend (s.submits e)).room
    omega

/-- where there is room for all that is put to the journal in a run, there is room at any time during the run -/
theorem fits_at {j : Journal} (hj : s.journal = some j) {es p : List Event} {e : Event}
    (hfit : (s.submitted es).length ≤ j.room) (hp : p ++ [e] <+: es) :
    ∃ j', (s.run p).journal = some j' ∧ ((s.run p).submits e).length ≤ j'.room := by
  obtain ⟨rest, rfl⟩ := hp
  rw [submitted_append, submitted_append, submitted, submitted, List.append_nil] at hfit
  simp only [List.length_append] at hfit
  have hpast : (s.submitted p).length ≤ j.room := by omega
  obtain ⟨b, hrun⟩ := journaled_run hj p
  have hroom := Journal.room_extend hpast
  rw [List.take_of_length_le hpast] at hrun
  refine ⟨_, hrun, ?_⟩
  show _ ≤ (j.extend (s.submitted p)).room
  omega

/-! ## Lockstep -/

/-- after `n` transactions have been opened from `s₀` on, and `ps` has been published -/
structure Lockstep (s₀ : State) (n : Nat) (ps : List Publication) (s : Session) : Prop where
  committed : s.committed = (ps.getLast?.map Publication.state).getD s₀
  nextTxn : s.nextTxn = UInt64.ofNat (n + 1)
  increasing : (ps.map fun p => p.txn.toNat).Pairwise (· < ·)
  past : ∀ p ∈ ps, p.txn.toNat ≤ n
  writer : ∀ t, s.writer = some t → t.id.toNat = n ∧ ∀ p ∈ ps, p.txn.toNat < n

variable {s₀ : State}

/-- what has to be looked at where no transaction is opened and nothing is published -/
structure Unpublished (s s' : Session) : Prop where
  committed : s'.committed = s.committed
  nextTxn : s'.nextTxn = s.nextTxn
  writer : ∀ t, s'.writer = some t → ∃ u, s.writer = some u ∧ t.id = u.id

theorem Unpublished.refl (s : Session) : s.Unpublished s := ⟨rfl, rfl, fun t hw => ⟨t, hw, rfl⟩⟩

theorem Lockstep.unpublished (h : s.Lockstep s₀ n ps) (hs : s.Unpublished s') : s'.Lockstep s₀ n ps where
  committed := hs.committed.trans h.committed
  nextTxn := hs.nextTxn.trans h.nextTxn
  increasing := h.increasing
  past := h.past
  writer t hw := by
    obtain ⟨u, hu, hid⟩ := hs.writer t hw
    rw [hid]
    exact h.writer u hu

/-- to open a transaction uses up the next number -/
theorem Lockstep.begin (h : s.Lockstep s₀ n ps) (hw : s.writer = none) (hn : n + 1 < 2 ^ 64) :
    (s.step .begin).Lockstep s₀ (n + 1) ps := by
  rw [step_begin_idle hw]
  refine
    { committed := h.committed
      nextTxn := ?_
      increasing := h.increasing
      past := fun p hp => Nat.le_succ_of_le (h.past p hp)
      writer := ?_ }
  · show s.nextTxn + 1 = _
    rw [h.nextTxn, UInt64.ofNat_add (n + 1)]
    rfl
  · intro t ht
    obtain rfl := Option.some.inj ht
    refine ⟨?_, fun p hp => Nat.lt_succ_of_le (h.past p hp)⟩
    show s.nextTxn.toNat = n + 1
    rw [h.nextTxn, UInt64.toNat_ofNat_of_lt' hn]

/-- a transaction that is published comes after all that have been published before it -/
theorem Lockstep.publish (h : s.Lockstep s₀ n ps) (hw : s.writer = some t) {now : UtcTime}
    (hc : s'.committed = t.working) (hnext : s'.nextTxn = s.nextTxn) (hclosed : s'.writer = none) :
    s'.Lockstep s₀ n (ps ++ [⟨t.id, t.mutations, now, t.working⟩]) := by
  obtain ⟨hid, hlast⟩ := h.writer t hw
  refine
    { committed := ?_
      nextTxn := hnext.trans h.nextTxn
      increasing := ?_
      past := ?_
      writer := fun u hu => ?_ }
  · rw [hc, List.getLast?_concat]
    rfl
  · rw [List.map_append, List.pairwise_append]
    refine ⟨h.increasing, List.pairwise_singleton _ _, fun k hk m hm => ?_⟩
    obtain ⟨p, hp, rfl⟩ := List.mem_map.1 hk
    obtain rfl : m = t.id.toNat := List.mem_singleton.1 hm
    rw [hid]
    exact hlast p hp
  · intro p hp
    rcases List.mem_append.1 hp with hp | hp
    · exact h.past p hp
    · rw [List.mem_singleton.1 hp, hid]
  · rw [hclosed] at hu
    simp at hu

/-- an event that is no commit, and opens nothing, publishes nothing -/
theorem step_unpublished {e : Event} (hopen : ¬ s.opens e) (hcommit : ∀ now, e ≠ .commit now) :
    s.Unpublished (s.step e) := by
  cases e with
  | begin =>
    cases hw : s.writer with
    | none => exact absurd (by simp [opens, hw]) hopen
    | some t =>
      rw [step_begin hw]
      exact .refl s
  | perform op =>
    cases hw : s.writer with
    | none =>
      rw [step_perform_idle hw]
      exact .refl s
    | some t =>
      rw [step_perform hw]
      refine ⟨rfl, rfl, fun u hu => ⟨t, hw, ?_⟩⟩
      rw [← Option.some.inj hu]
      exact t.perform_id op
  | commit now => exact absurd rfl (hcommit now)
  | rollback =>
    cases hw : s.writer with
    | none =>
      rw [step_rollback_idle hw]
      exact .refl s
    | some t =>
      rw [step_rollback hw]
      exact ⟨rfl, rfl, fun u hu => by simp [discard] at hu⟩
  | rejectNextCommit => exact ⟨rfl, rfl, fun t ht => ⟨t, ht, rfl⟩⟩
  | drawElsewhere count =>
    cases hw : s.writer with
    | none =>
      rw [step_drawElsewhere_idle hw]
      exact ⟨rfl, rfl, fun u hu => ⟨u, hu, rfl⟩⟩
    | some t =>
      rw [step_drawElsewhere hw]
      refine ⟨rfl, rfl, fun u hu => ⟨t, hw, ?_⟩⟩
      rw [← Option.some.inj hu]

/-- a commit publishes the open transaction, or leaves things unpublished -/
theorem commit_cases (s : Session) (now : UtcTime) :
    (∃ t, s.writer = some t ∧ s.publishes? (.commit now) = some ⟨t.id, t.mutations, now, t.working⟩ ∧
      (s.step (.commit now)).committed = t.working) ∨
    s.publishes? (.commit now) = none ∧ s.Unpublished (s.step (.commit now)) := by
  cases hw : s.writer with
  | none =>
    rw [step_commit_idle hw]
    exact Or.inr ⟨by simp [publishes?, hw], .refl s⟩
  | some t =>
    have hc : s.commit now = some ((s.finish t now).1, (s.finish t now).2) := commit_of_writer hw now
    rw [step_commit hw]
    obtain ⟨hclosed, ⟨hok, hcommitted⟩ | ⟨hne, hcommitted⟩⟩ := s.finish_cases t now
    · exact Or.inl ⟨t, rfl, by rw [publishes?, hc, hw, hok], hcommitted⟩
    · refine Or.inr ⟨publishes?_eq_none fun now' txn s' he h => ?_, hcommitted, s.nextTxn_finish t now, fun u hu => ?_⟩
      · obtain rfl := Event.commit.inj he
        rw [hc] at h
        exact hne txn (Prod.mk.inj (Option.some.inj h)).1
      · rw [hclosed] at hu
        simp at hu

/-- **One event** keeps publications and committed state in step. -/
theorem lockstep_step (h : s.Lockstep s₀ n ps) (e : Event) (hn : n + (s.opens e).toNat < 2 ^ 64) :
    (s.step e).Lockstep s₀ (n + (s.opens e).toNat) (ps ++ (s.publishes? e).toList) := by
  by_cases hopen : s.opens e
  · -- a transaction is opened, and nothing is published
    cases e with
    | begin =>
      have hw : s.writer = none := Option.isNone_iff_eq_none.1 hopen
      rw [hopen] at hn ⊢
      rw [show s.publishes? .begin = none from rfl, Option.toList_none, List.append_nil]
      exact h.begin hw hn
    | _ => cases hopen
  · rw [Bool.eq_false_of_not_eq_true hopen, Bool.toNat_false, Nat.add_zero]
    by_cases hcommit : ∃ now, e = .commit now
    · obtain ⟨now, rfl⟩ := hcommit
      rcases s.commit_cases now with ⟨t, hw, hp, hc⟩ | ⟨hp, hs⟩
      · rw [hp]
        rw [step_commit hw] at hc ⊢
        exact h.publish hw hc (s.nextTxn_finish t now) (s.finish_cases t now).1
      · rw [hp, Option.toList_none, List.append_nil]
        exact h.unpublished hs
    · have hp : s.publishes? e = none := publishes?_eq_none fun now _ _ he => absurd ⟨now, he⟩ hcommit
      rw [hp, Option.toList_none, List.append_nil]
      exact h.unpublished (step_unpublished hopen fun now he => hcommit ⟨now, he⟩)

/-- **Any events** keep publications and committed state in step. -/
theorem lockstep_run (h : s.Lockstep s₀ n ps) (es : List Event) (hn : n + s.opened es < 2 ^ 64) :
    (s.run es).Lockstep s₀ (n + s.opened es) (ps ++ s.publications es) := by
  induction es generalizing s n ps with
  | nil => rwa [opened, publications, List.append_nil]
  | cons e es ih =>
    rw [opened, ← Nat.add_assoc] at hn ⊢
    rw [run_cons, publications, ← List.append_assoc]
    exact ih (lockstep_step h e (by omega)) hn

/-! ## From the start -/

variable {config : SessionConfig} {ids : Option IdSource} {es : List Event}

theorem start_lockstep {journal : Option Journal} (hs : start config ids journal = .ok s) :
    s.Lockstep s.committed 0 [] := by
  obtain rfl := start_eq hs
  exact
    { committed := rfl
      nextTxn := rfl
      increasing := List.Pairwise.nil
      past := fun p hp => absurd hp List.not_mem_nil
      writer := nofun }

/-- an event that publishes nothing leaves the committed state as it is -/
theorem committed_kept {e : Event} (h : s.publishes? e = none) : (s.step e).committed = s.committed := by
  by_cases hcommit : ∃ now, e = .commit now
  · obtain ⟨now, rfl⟩ := hcommit
    rcases s.commit_cases now with ⟨t, -, hp, -⟩ | ⟨-, hs⟩
    · simp [hp] at h
    · exact hs.committed
  · by_cases hopen : s.opens e
    · cases e with
      | begin =>
        have hw : s.writer = none := Option.isNone_iff_eq_none.1 hopen
        rw [step_begin_idle hw]
        rfl
      | _ => cases hopen
    · exact (step_unpublished hopen fun now he => hcommit ⟨now, he⟩).committed

/-- and the records, if there is room for what it puts to the journal -/
theorem records_kept {j : Journal} (hj : s.journal = some j) {e : Event} (hfit : (s.submits e).length ≤ j.room)
    (h : s.publishes? e = none) : (s.step e).journal.map Journal.records = s.journal.map Journal.records := by
  obtain ⟨b, hstep⟩ := journaled_step hj e
  have hnone := (submits_of_fits hj hfit).1
  rw [h, Option.toList_none, List.flatMap_nil] at hnone
  rw [hstep, hj, hnone, List.take_nil, Journal.extend_nil]
  rfl

/-- **The journal and the committed state stay in step**, and every commit comes back, as long as there are numbers for
the entries that commits put to the journal: the records are the blocks of the commits that were done, and the committed
state is that of the last one. What is not a commit that is done changes neither. -/
theorem journal_in_lockstep (hs : start config ids (some .empty) = .ok s)
    (hrecords : (s.submitted es).length < 2 ^ 64 - 1) (htxns : s.opened es < 2 ^ 64) :
    (∃ j, (s.run es).journal = some j ∧
      j.records.map JournalRecord.entry = (s.publications es).flatMap Publication.block ∧
      j.records.map (fun r => r.lsn.toNat) = (List.range j.records.length).map (· + 1)) ∧
    ((s.publications es).map fun p => p.txn.toNat).Pairwise (· < ·) ∧
    (s.run es).committed = ((s.publications es).getLast?.map Publication.state).getD
      ⟨.bootstrap (MetaTypes.take ⟨firstId config ids⟩).1, .empty⟩ ∧
    ∀ p e, p ++ [e] <+: es →
      (∀ now s', e = .commit now → (s.run p).commit now ≠ some (.brokenOff, s')) ∧
      ((∀ now txn s', e = .commit now → (s.run p).commit now ≠ some (.ok txn, s')) →
        (s.run (p ++ [e])).journal.map Journal.records = (s.run p).journal.map Journal.records ∧
        (s.run (p ++ [e])).committed = (s.run p).committed) := by
  have hj : s.journal = some .empty := by rw [start_eq hs]
  have hfit : (s.submitted es).length ≤ Journal.empty.room := by
    rw [show Journal.empty.room = 2 ^ 64 - 2 from rfl]
    omega
  have h := lockstep_run (start_lockstep hs) es (by rwa [Nat.zero_add])
  rw [List.nil_append] at h
  refine ⟨?_, h.increasing, ?_, fun p e hp => ?_⟩
  · obtain ⟨b, hrun⟩ := journaled_run hj es
    rw [List.take_of_length_le hfit] at hrun
    refine ⟨_, hrun, ?_, ?_⟩
    · show (Journal.empty.extend (s.submitted es)).records.map JournalRecord.entry = _
      rw [Journal.entries_extend, submitted_of_fits hj hfit]
      rfl
    · exact Journal.lsns_of_empty hfit
  · rw [← (start_spec hs).1]
    exact h.committed
  · obtain ⟨j', hj', hfit'⟩ := fits_at hj hfit hp
    refine ⟨(submits_of_fits hj' hfit').2, fun he => ?_⟩
    have hnone := publishes?_eq_none he
    rw [run_concat]
    exact ⟨records_kept hj' hfit' hnone, committed_kept hnone⟩

/-- a session on an empty keyspace that writes a journal -/
def journaling : Session := { blank with journal := some .empty }

/-- the start of the clock -/
def epoch : UtcTime := ⟨⟨1970, 1, 1, 0, 0, 0, 0, by decide⟩⟩

/-- five transactions: refused by the journal, done, refused for a key, rolled back, and done -/
def attempts : List Event :=
  [.begin, .perform (.putEntityType "person"), .rejectNextCommit, .commit epoch,
    .begin, .perform (.putEntityType "person"), .perform (.savepoint "alone"), .perform (.putRole "child"),
    .perform (.rollbackTo "alone"), .commit epoch,
    .begin, .perform (.putAttributeType "name" (some .string)), .perform (.key ⟨7⟩ ⟨9⟩), .perform (.createEntity ⟨7⟩),
    .commit epoch,
    .begin, .perform (.setLabel ⟨7⟩ "human"), .rollback,
    .begin, .perform (.putAttributeType "name" none), .commit epoch]

set_option maxRecDepth 10000 in
theorem attempts_in_lockstep :
    (journaling.publications attempts).flatMap Publication.block =
      [.begun 2, .applied 2 (.defineType ⟨7⟩ "person" .entity ⟨2⟩), .committed 2 epoch,
        .begun 5, .applied 5 (.defineType ⟨14⟩ "name" .attribute ⟨4⟩), .committed 5 epoch] ∧
    journaling.opened attempts = 5 ∧
    ∃ j, (journaling.run attempts).journal = some j ∧
      j.records.map JournalRecord.entry = (journaling.publications attempts).flatMap Publication.block ∧
      j.records.map (fun r => r.lsn.toNat) = (List.range j.records.length).map (· + 1) := by
  have hblocks : (journaling.publications attempts).flatMap Publication.block =
      [.begun 2, .applied 2 (.defineType ⟨7⟩ "person" .entity ⟨2⟩), .committed 2 epoch,
        .begun 5, .applied 5 (.defineType ⟨14⟩ "name" .attribute ⟨4⟩), .committed 5 epoch] := by decide +kernel
  have hopened : journaling.opened attempts = 5 := by decide +kernel
  have hstart : start .testing none (some .empty) = .ok journaling := rfl
  refine ⟨hblocks, hopened, (journal_in_lockstep hstart ?_ ?_).1⟩
  · decide +kernel
  · rw [hopened]
    decide

end Session

end ConceptGraph
