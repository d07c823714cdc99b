/-
Why an operation is refused. Each cause is a constructor with what it is about; `message` is the one place that words
it. An operation that is refused has changed nothing.
-/
import ConceptGraph.DataType
import ConceptGraph.Label
import ConceptGraph.Text.Quoted
import ConceptGraph.Violation

namespace ConceptGraph

inductive ConceptError where
  | cycle (label supertype : Label)
  | labelConflict (label : Label) (reason : String)
  | labelAlreadyInUse (label : Label)
  | constraintViolation (v : Violation)
  | invalidPattern (pattern reason : String)
  | regexNotApplicable (label : Label) (dataType : Option DataType)
  | typeMismatch (label : Label) (expected : Option DataType) (actual : DataType)
  | unsupportedDataType (name : String)
  | unknownConcept (id : UInt64)
  | unknownLabel (label : String)
  | kindMismatch (label : Label) (expected actual : Kind)
  | persistence (detail : String)
  | invalidConfig (detail : String)
  deriving DecidableEq, Repr

namespace ConceptError

/-- the name of the cause -/
def name : ConceptError → String
  | cycle .. => "Cycle"
  | labelConflict .. => "LabelConflict"
  | labelAlreadyInUse .. => "LabelAlreadyInUse"
  | constraintViolation .. => "ConstraintViolation"
  | invalidPattern .. => "InvalidPattern"
  | regexNotApplicable .. => "RegexNotApplicable"
  | typeMismatch .. => "TypeMismatch"
  | unsupportedDataType .. => "UnsupportedDataType"
  | unknownConcept .. => "UnknownConcept"
  | unknownLabel .. => "UnknownLabel"
  | kindMismatch .. => "KindMismatch"
  | persistence .. => "Persistence"
  | invalidConfig .. => "InvalidConfig"

/-- how a data type that may not be there is called -/
def dataTypeText : Option DataType → String
  | some d => d.name
  | none => "unset"

def message : ConceptError → String
  | cycle label supertype =>
    "Setting " ++ supertype ++ " as the supertype of " ++ label ++ " would create a cycle"
  | labelConflict label reason => "Label conflict on " ++ label ++ ": " ++ reason
  | labelAlreadyInUse label => "Label already in use: " ++ label
  | constraintViolation v => "Constraint violation: " ++ toString v
  | invalidPattern pattern reason => "Invalid pattern " ++ Text.quoted pattern ++ ": " ++ reason
  | regexNotApplicable label d =>
    "Regex is not applicable to " ++ label ++ ": data type is " ++ dataTypeText d
  | typeMismatch label expected actual =>
    "Type mismatch on " ++ label ++ ": expected " ++ dataTypeText expected ++ ", got " ++ actual.name
  | unsupportedDataType name => "Unsupported data type: " ++ name
  | unknownConcept id => "Unknown concept: " ++ idText id
  | unknownLabel label => "Unknown label: " ++ label
  | kindMismatch label expected actual =>
    label ++ " is a " ++ actual.describe ++ ", expected a " ++ expected.describe
  | persistence detail => "Persistence failed: " ++ detail
  | invalidConfig detail => "Invalid configuration: " ++ detail

instance : ToString ConceptError := ⟨message⟩

/-! ## Causes by what they concern -/

def unknownType (t : TypeId) : ConceptError := .unknownConcept t.raw
def unknownThing (t : ThingId) : ConceptError := .unknownConcept t.raw

def violation (kind : ViolationKind) (message : String) : ConceptError := .constraintViolation ⟨kind, message, none, none⟩

/-- a violation on a schema element -/
def violationOn (kind : ViolationKind) (message : String) (t : TypeId) : ConceptError :=
  .constraintViolation ⟨kind, message, some t, none⟩

/-- a violation by an instance, on a schema element -/
def violationBy (kind : ViolationKind) (message : String) (t : TypeId) (thing : ThingId) : ConceptError :=
  .constraintViolation ⟨kind, message, some t, some thing⟩

/-- which rule is broken, if that is the cause -/
def violationKind : ConceptError → Option ViolationKind
  | .constraintViolation v => some v.kind
  | _ => none

def isViolation (e : ConceptError) (kind : ViolationKind) : Bool := e.violationKind == some kind

end ConceptError

/-- the domain of that exact name, which has to be one -/
def DataType.named (name : String) : Except ConceptError DataType :=
  match DataType.ofName? name with
  | some d => .ok d
  | none => .error (.unsupportedDataType name)

end ConceptGraph
