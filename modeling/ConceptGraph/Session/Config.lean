/-
Settings of a session. As data, settings that are left out keep their defaults.
-/
import ConceptGraph.ConceptError
import ConceptGraph.Json.Reader
import ConceptGraph.Json.Decode

namespace ConceptGraph

structure SessionConfig where
  /-- name of the keyspace that the session works on -/
  keyspace : String
  /-- the first identifier that the session hands out by itself -/
  firstConceptId : UInt64
  /-- how many characters a label can have -/
  maxLabelLen : UInt64
  /-- whether keys are checked at the end of a transaction -/
  validateOnCommit : Bool
  deriving DecidableEq, Repr

inductive ConfigError where
  | malformed
  | invalid (field detail : String)
  deriving DecidableEq, Repr

namespace ConfigError

def message : ConfigError → String
  | malformed => "Parse error: "
  | invalid field detail => "Invalid setting " ++ field ++ ": " ++ detail

def toConceptError (e : ConfigError) : ConceptError := .invalidConfig e.message

end ConfigError

namespace SessionConfig

def default : SessionConfig := ⟨"default", 1, 256, true⟩

/-- small limits, for trying things out -/
def testing : SessionConfig := ⟨"test", 1, 64, true⟩

def validate (c : SessionConfig) : Except ConfigError Unit :=
  if c.keyspace = "" then throw (.invalid "keyspace" "cannot be empty")
  else if c.firstConceptId = 0 then throw (.invalid "first_concept_id" "must be positive")
  else if c.maxLabelLen = 0 then throw (.invalid "max_label_len" "must be positive")
  else pure ()

/-! ## Data -/

def toJson (c : SessionConfig) : Json :=
  .record [("keyspace", .ofString c.keyspace), ("first_concept_id", .ofNat c.firstConceptId.toNat),
    ("max_label_len", .ofNat c.maxLabelLen.toNat), ("validate_on_commit", .bool c.validateOnCommit)]

def fieldNames : List String := ["keyspace", "first_concept_id", "max_label_len", "validate_on_commit"]

/-- settings from what stands for each of the fields, if anything does -/
def ofSettings? (settings : List (Option Json)) : Option SessionConfig := do
  let setting {α : Type} (i : Nat) (read : Json → Option α) (preset : α) : Option α :=
    match (settings[i]?).join with
    | some j => read j
    | none => some preset
  let keyspace ← setting 0 Json.string? default.keyspace
  let firstConceptId ← setting 1 Json.uint64? default.firstConceptId
  let maxLabelLen ← setting 2 Json.uint64? default.maxLabelLen
  let validateOnCommit ← setting 3 Json.bool? default.validateOnCommit
  pure ⟨keyspace, firstConceptId, maxLabelLen, validateOnCommit⟩

/-- the value of a field that stands at most once -/
def setting? (fields : List (String × Json)) (name : String) : Option (Option Json) :=
  match fields.filter (·.1 == name) with
  | [] => some none
  | [(_, j)] => some (some j)
  | _ => none

def ofJson? : Json → Option SessionConfig
  | .array items => if items.length ≤ fieldNames.length then ofSettings? (items.map some) else none
  | .object fields => do
    let known ← Json.properFields? fields
    ofSettings? (← fieldNames.mapM (setting? known))
  | _ => none

/-- the settings that a text holds, which have to be valid -/
def ofText (text : String) : Except ConfigError SessionConfig := do
  match (Json.parse? text).bind ofJson? with
  | some c =>
    c.validate
    pure c
  | none => throw .malformed

end SessionConfig

end ConceptGraph
