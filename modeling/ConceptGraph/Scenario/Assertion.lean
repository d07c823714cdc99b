/-
What a step of a scenario is expected to come to: success, or an error of which the kind of violation, the cause and a
part of the message can be given.
-/
import ConceptGraph.ConceptError
import ConceptGraph.Regex.Parser

namespace ConceptGraph

/-- why a scenario fails -/
inductive ScenarioError where
  | unexpectedError (step : String) (e : ConceptError)
  | unexpectedSuccess (step expected : String)
  | wrongError (step expected : String) (actual : ConceptError)
  | invalidPattern (pattern reason : String)
  | session (scenario : String) (e : ConceptError)
  deriving DecidableEq, Repr

namespace ScenarioError

def name : ScenarioError → String
  | unexpectedError .. => "UnexpectedError"
  | unexpectedSuccess .. => "UnexpectedSuccess"
  | wrongError .. => "WrongError"
  | invalidPattern .. => "InvalidPattern"
  | session .. => "Session"

def message : ScenarioError → String
  | unexpectedError step e => "Step " ++ step ++ " failed: " ++ e.message
  | unexpectedSuccess step expected => "Step " ++ step ++ " succeeded, expected: " ++ expected
  | wrongError step expected actual =>
    "Step " ++ step ++ " failed with the wrong error: expected " ++ expected ++ ", got " ++ actual.message
  | invalidPattern pattern reason => "Invalid error pattern " ++ Text.quoted pattern ++ ": " ++ reason
  | session scenario e => "Scenario " ++ scenario ++ " could not open a session: " ++ e.message

end ScenarioError

/-- what a step is expected to come to -/
structure Assertion where
  fails : Bool
  violation : Option ViolationKind
  /-- name of the cause -/
  cause : Option String
  /-- regex of which the message contains a match -/
  errorPattern : Option String
  deriving DecidableEq, Repr

namespace Assertion

/-- success, and nothing else asked for -/
def new : Assertion := ⟨false, none, none, none⟩

/-! ## Building -/

def ok (a : Assertion) : Assertion := { a with fails := false }

def violating (a : Assertion) (kind : ViolationKind) : Assertion := { a with fails := true, violation := some kind }

def error (a : Assertion) (cause : String) : Assertion := { a with fails := true, cause := some cause }

def errorMatching (a : Assertion) (pattern : String) : Assertion :=
  { a with fails := true, errorPattern := some pattern }

/-! ## Checking -/

/-- how the expected error is told -/
def expected (a : Assertion) : String :=
  let parts := (a.violation.map fun k => "violation " ++ k.name).toList
    ++ (a.cause.map fun c => "error " ++ c).toList
    ++ (a.errorPattern.map fun p => "message matching /" ++ p ++ "/").toList
  if parts.isEmpty then "an error" else ", ".intercalate parts

/-- whether the message contains a match of the expected regex, if there is one -/
def messageMatches (a : Assertion) (message : String) : Except ScenarioError Bool :=
  match a.errorPattern with
  | none => .ok true
  | some pattern =>
    match Regex.parse pattern.toList with
    | .ok e => .ok (e.occursIn message)
    | .error fault => .error (.invalidPattern pattern fault.message)

/-- whether the step came to what was expected -/
def verify (a : Assertion) (step : String) (result : Except ConceptError Unit) : Except ScenarioError Unit :=
  match result, a.fails with
  | .ok (), false => .ok ()
  | .ok (), true => .error (.unexpectedSuccess step a.expected)
  | .error e, false => .error (.unexpectedError step e)
  | .error e, true => do
    let wrong := ScenarioError.wrongError step a.expected e
    if a.violation.any fun k => !e.isViolation k then throw wrong
    if a.cause.any fun c => e.name != c then throw wrong
    if ← a.messageMatches e.message then pure () else throw wrong

end Assertion

end ConceptGraph
