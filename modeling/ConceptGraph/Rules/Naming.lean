/-
Labels and supertypes that users may give.

A label of a user is not empty, does not start with `@`, has no `:` in it and is not too long; and it is free. Where an
attribute type is renamed, the labels that go with its ownership record have to be free as well.
-/
import ConceptGraph.Rules.Guard

namespace ConceptGraph.State

/-- whether the text can be the label of a user's element -/
def checkLabel (label : String) (limit : Nat) : Except ConceptError Unit :=
  let cs := label.toList
  if cs = [] then throw (.labelConflict label "labels cannot be empty")
  else if Label.isReserved label then
    throw (.labelConflict label ("labels starting with " ++ Label.reservedMark.toString ++ " are reserved"))
  else if cs.contains Label.scopeMark then
    throw (.labelConflict label ("labels cannot contain " ++ Label.scopeMark.toString))
  else if limit < cs.length then
    throw (.labelConflict label ("labels are limited to " ++ toString limit ++ " characters"))
  else pure ()

/-- whether elements of the kind can be put under `supertype`; `thing` itself stays for the three kinds alone -/
def checkSupertypeKind (s : State) (label : String) (kind : Kind) (supertype : TypeId) : Except ConceptError Unit := do
  let d ← s.schema.require supertype
  if d.kind ≠ kind ∨ supertype = s.schema.metaTypes.thingRoot then
    throw (.labelConflict label (d.label ++ " cannot be the supertype of a " ++ kind.describe))
  notImplicit d

/-- whether an element of that label can be made under `supertype` -/
def checkNewType (s : State) (label : String) (kind : Kind) (supertype : TypeId) (limit : Nat) :
    Except ConceptError Unit := do
  checkLabel label limit
  s.schema.checkLabelFree label none
  s.checkSupertypeKind label kind supertype

/-- whether the element can be given that label -/
def checkSetLabel (s : State) (t : TypeId) (label : String) (limit : Nat) : Except ConceptError Unit := do
  let _ ← s.editableAny t
  checkLabel label limit
  s.schema.checkLabelFree label (some t)
  match s.schema.implicitForOwned? t with
  | some record =>
    s.schema.checkLabelFree (Label.ownershipRelation label) (some record.relation)
    s.schema.checkLabelFree (Label.ownerRole label) (some record.ownerRole)
    s.schema.checkLabelFree (Label.valueRole label) (some record.valueRole)
  | none => pure ()

/-- whether a type can be made abstract or concrete -/
def checkSetAbstract (s : State) (t : TypeId) (isAbstract : Bool) : Except ConceptError Unit := do
  let d ← s.editableThingType t
  if isAbstract ∧ !d.isAbstract ∧ 0 < s.graph.countOfType t then
    throw (.violationOn .hasInstances (d.label ++ " has instances and cannot become abstract") t)

end ConceptGraph.State
