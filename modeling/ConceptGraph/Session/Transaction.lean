/-
A write transaction: a working copy of the committed state, the mutations so far, and savepoints to return to.

Edits run in `Edit`. An edit that is refused keeps whatever it has changed until then, so it is for each operation to
check everything before it changes anything. Identifiers are never handed out twice, whatever is rolled back.
-/
import ConceptGraph.Journal.Record
import ConceptGraph.State.Basic

namespace ConceptGraph

open Std

/-- a state to return to, and how many mutations led there -/
structure Savepoint where
  state : State
  applied : Nat

structure Transaction where
  id : TxnId
  /-- how many characters a label can have -/
  labelLimit : Nat
  ids : IdSource
  working : State
  /-- in the order in which they were applied -/
  mutations : List Mutation
  savepoints : ExtTreeMap String Savepoint

/-- what is done in a transaction, or refused -/
abbrev Edit := ExceptT ConceptError (StateM Transaction)

namespace Transaction

/-- a transaction on a committed state -/
def begun (id : TxnId) (labelLimit : Nat) (ids : IdSource) (committed : State) : Transaction :=
  ⟨id, labelLimit, ids, committed, [], ∅⟩

/-! ## Steps of edits -/

/-- what a rule or a query says of the working state -/
def ask {α : Type} (f : State → Except ConceptError α) : Edit α := do liftExcept (f (← get).working)

/-- what a query finds in the working state -/
def look {α : Type} (f : State → α) : Edit α := do pure (f (← get).working)

def setSchema (schema : Schema) : Edit Unit :=
  modify fun t => { t with working := { t.working with schema := schema } }

def setGraph (graph : Graph) : Edit Unit :=
  modify fun t => { t with working := { t.working with graph := graph } }

/-- replaces the schema by what becomes of it -/
def editSchema (f : Schema → Except ConceptError Schema) : Edit Unit := do setSchema (← ask fun s => f s.schema)

/-- replaces the graph by what becomes of it, and tells what came of the edit -/
def editGraph {α : Type} (f : Graph → Except ConceptError (α × Graph)) : Edit α := do
  let (a, graph) ← ask fun s => f s.graph
  setGraph graph
  pure a

def record (m : Mutation) : Edit Unit := modify fun t => { t with mutations := t.mutations ++ [m] }

def newType : Edit TypeId :=
  modifyGet fun t => (t.ids.takeType.1, { t with ids := t.ids.takeType.2 })

def newThing : Edit ThingId :=
  modifyGet fun t => (t.ids.takeThing.1, { t with ids := t.ids.takeThing.2 })

/-! ## Savepoints -/

/-- remembers the working state under a name, in place of what that name stood for -/
def savepoint (name : String) : Edit Unit :=
  modify fun t => { t with savepoints := t.savepoints.insert name ⟨t.working, t.mutations.length⟩ }

/-- returns to a savepoint, and forgets those with more mutations -/
def rollbackTo (name : String) : Edit Unit := do
  let t ← get
  match t.savepoints[name]? with
  | none => throw (.unknownLabel name)
  | some sp =>
    set { t with
      working := sp.state
      mutations := t.mutations.take sp.applied
      savepoints := t.savepoints.filter fun _ other => other.applied ≤ sp.applied }

def releaseSavepoint (name : String) : Edit Unit := do
  let t ← get
  if t.savepoints.contains name then set { t with savepoints := t.savepoints.erase name }
  else throw (.unknownLabel name)

end Transaction

end ConceptGraph
