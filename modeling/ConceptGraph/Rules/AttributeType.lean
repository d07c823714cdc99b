/-
Data types and regexes of attribute types. A data type is declared once, before there are instances, and agrees with
those above and below it; a regex constrains strings only, and all strings that are there already.
-/
import ConceptGraph.Rules.Conformance

namespace ConceptGraph.State

def checkSetDataType (s : State) (t : TypeId) (dataType : DataType) : Except ConceptError Unit := do
  let d ← s.editable t .attribute
  let immutable (message : String) : ConceptError := .violationOn .immutableDataType (d.label ++ message) t
  if s.hasInstances t then throw (immutable " already has instances")
  else match d.dataType? with
    | some current =>
      if current = dataType then pure () else throw (immutable (" is already " ++ current.name))
    | none =>
      checkEach (s.schema.supertypes t ++ s.schema.subtypes t) fun other => do
        let o ← s.schema.get? other
        let declared ← o.dataType?
        if declared = dataType then none
        else some (immutable (" is related to " ++ o.label ++ " of type " ++ declared.name))
      let constrained := !(s.schema.patterns t).isEmpty
        || (s.schema.subtypes t).any fun sub => (s.schema.get? sub).any fun o => o.regex?.isSome
      if !dataType.isString ∧ constrained then throw (.regexNotApplicable d.label (some dataType))

/-- the pattern, if all strings that are there match it -/
def checkSetRegex (s : State) (t : TypeId) (source : String) : Except ConceptError Pattern := do
  let d ← s.editable t .attribute
  let dataType := s.schema.dataType? t
  if dataType ≠ some .string then throw (.regexNotApplicable d.label dataType)
  let pattern ← Pattern.compile source
  checkEach (s.instances t) fun i => do
    let text ← i.2.value?.bind Value.string?
    if pattern.isMatch text then none
    else some (.violationBy .regexViolation
      (text ++ " of " ++ d.label ++ " does not match " ++ toString pattern) t i.1)
  pure pattern

def checkUnsetRegex (s : State) (t : TypeId) : Except ConceptError Unit := do
  let _ ← s.editable t .attribute

end ConceptGraph.State
