/-
Sessions: the committed state of a keyspace, and at most one write transaction on it.

A transaction is published as a whole. `commit` first checks the keys, if the settings say so, then hands the mutations
to the journal, if there is one, and only then replaces the committed state; if either refuses, or the journal breaks off,
the transaction is gone and the committed state stays. Identifiers and transaction numbers that were used up stay used up.
-/
import ConceptGraph.Journal.Basic
import ConceptGraph.Session.Config
import ConceptGraph.Session.Operation

namespace ConceptGraph

open Std

structure Session where
  config : SessionConfig
  /-- where identifiers come from while no transaction is open -/
  ids : IdSource
  journal : Option Journal
  committed : State
  /-- number of the next transaction -/
  nextTxn : TxnId
  writer : Option Transaction

namespace Session

/-- a session on an empty keyspace; without a source of identifiers they count from the first one in the settings -/
def start (config : SessionConfig) (ids : Option IdSource) (journal : Option Journal) : Except ConceptError Session :=
  match config.validate with
  | .error e => .error e.toConceptError
  | .ok () =>
    let (metaTypes, ids) := MetaTypes.take (ids.getD ⟨config.firstConceptId⟩)
    .ok ⟨config, ids, journal, ⟨.bootstrap metaTypes, .empty⟩, 1, none⟩

/-- a write transaction on the committed state, and the session with its number used up -/
def newTransaction (s : Session) : Transaction × Session :=
  (.begun s.nextTxn s.config.maxLabelLen.toNat s.ids s.committed, { s with nextTxn := s.nextTxn + 1 })

/-- the number of a write transaction that is open now, unless one was open already -/
def begin? (s : Session) : Option (TxnId × Session) :=
  match s.writer with
  | some _ => none
  | none =>
    let (t, s) := s.newTransaction
    some (t.id, { s with writer := some t })

/-- what comes of an edit of the open transaction -/
def edit {α : Type} (s : Session) (e : Edit α) : Option (Except ConceptError α × Session) :=
  s.writer.map fun t =>
    let (r, t) := e.run.run t
    (r, { s with writer := some t })

/-- discards a transaction; its identifiers stay used up -/
def discard (s : Session) (t : Transaction) : Session := { s with ids := t.ids, writer := none }

/-- discards the open transaction, if there is one -/
def rollback (s : Session) : Session :=
  match s.writer with
  | some t => s.discard t
  | none => s

/-- the first violation of a key in the transaction, if the settings ask for it -/
def commitFault (s : Session) (t : Transaction) : Option Violation :=
  if s.config.validateOnCommit then t.working.commitViolations.head? else none

/-- checks, journals and publishes a transaction, which is gone in any case -/
def finish (s : Session) (t : Transaction) (now : UtcTime) : Outcome ConceptError TxnId × Session :=
  let closed := s.discard t
  let published := { closed with committed := t.working }
  match s.commitFault t with
  | some v => (.error (.constraintViolation v), closed)
  | none =>
    match s.journal with
    | none => (.ok t.id, published)
    | some journal =>
      match journal.commit t.id t.mutations now with
      | (.ok (), journal) => (.ok t.id, { published with journal := some journal })
      | (.error e, journal) => (.error e.toConceptError, { closed with journal := some journal })
      | (.brokenOff, journal) => (.brokenOff, { closed with journal := some journal })

/-- as `finish`, for the open transaction -/
def commit (s : Session) (now : UtcTime) : Option (Outcome ConceptError TxnId × Session) :=
  s.writer.map fun t => s.finish t now

end Session

end ConceptGraph
