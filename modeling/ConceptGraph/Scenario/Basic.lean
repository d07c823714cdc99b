/-
Scenarios: steps that are run one after the other on a new session, each in a transaction of its own that is committed
if the step succeeds, and each checked against what is expected of it.

Steps can name instances for later steps; the names that a failing step gives are lost with its transaction. Steps can
also keep notes, of a kind that the scenario chooses, and these are never lost.
-/
import ConceptGraph.Scenario.Assertion
import ConceptGraph.Session.Basic

namespace ConceptGraph

open Std

/-- what a step works on -/
structure StepContext (σ : Type) where
  transaction : Transaction
  /-- instances by the names that steps gave them -/
  things : ExtTreeMap String ThingId
  notes : σ

/-- what is done in a step, or refused -/
abbrev StepEdit (σ : Type) := ExceptT ConceptError (StateM (StepContext σ))

namespace StepEdit

variable {σ : Type}

/-- an edit of the step's transaction -/
def edit {α : Type} (e : Edit α) : StepEdit σ α := do
  let c ← get
  let (r, t) := e.run.run c.transaction
  set { c with transaction := t }
  liftExcept r

/-- gives an instance a name -/
def bind (name : String) (id : ThingId) : StepEdit σ Unit := modify fun c => { c with things := c.things.insert name id }

/-- the instance of that name -/
def thing (name : String) : StepEdit σ ThingId := do
  match (← get).things[name]? with
  | some id => pure id
  | none => throw (.unknownLabel name)

def note (f : σ → σ) : StepEdit σ Unit := modify fun c => { c with notes := f c.notes }

end StepEdit

structure Step (σ : Type) where
  name : String
  body : StepEdit σ Unit
  assertion : Assertion

structure Scenario (σ : Type) where
  name : String
  config : SessionConfig
  steps : List (Step σ)

namespace Scenario

variable {σ : Type}

/-- a scenario without steps, on small limits -/
def new (name : String) : Scenario σ := ⟨name, .testing, []⟩

def withConfig (s : Scenario σ) (config : SessionConfig) : Scenario σ := { s with config := config }

def withStep (s : Scenario σ) (step : Step σ) : Scenario σ := { s with steps := s.steps ++ [step] }

def length (s : Scenario σ) : Nat := s.steps.length

/-- runs the steps one after the other, up to the first that does not come to what is expected of it -/
def runSteps (now : UtcTime) :
    Session → ExtTreeMap String ThingId → σ → List (Step σ) → Outcome ScenarioError Session × σ
  | session, _, notes, [] => (.ok session, notes)
  | session, things, notes, step :: steps =>
    let (t, session) := session.newTransaction
    let (result, c) := step.body.run.run ⟨t, things, notes⟩
    let (answer, session) := match result with
      | .ok () =>
        let (r, session) := session.finish c.transaction now
        (r.answer?, session)
      | .error e => (some (.error e), session.discard c.transaction)
    match answer with
    | none => (.brokenOff, c.notes)
    | some result =>
      let things := match result with
        | .ok _ => c.things
        | .error _ => things
      match step.assertion.verify step.name (result.map fun _ => ()) with
      | .ok () => runSteps now session things c.notes steps
      | .error e => (.error e, c.notes)

/-- the session after all steps, and the notes -/
def run (s : Scenario σ) (now : UtcTime) (notes : σ) : Outcome ScenarioError Session × σ :=
  match Session.start s.config none none with
  | .error e => (.error (.session s.name e), notes)
  | .ok session => runSteps now session ∅ notes s.steps

end Scenario

end ConceptGraph
