/-
What users can ask of a state.
-/
import ConceptGraph.State.Basic

namespace ConceptGraph.State

open Std

/-! ## Types -/

/-- the element of that label, which has to be there -/
def typeId (s : State) (label : Label) : Except ConceptError TypeId :=
  match s.schema.idOf? label with
  | some t => .ok t
  | none => .error (.unknownLabel label)

def label (s : State) (t : TypeId) : Except ConceptError Label := do pure (← s.schema.require t).label

def kind (s : State) (t : TypeId) : Except ConceptError Kind := do pure (← s.schema.require t).kind

def isAbstract (s : State) (t : TypeId) : Except ConceptError Bool := do pure (← s.schema.require t).isAbstract

/-- the data type that an attribute type declares or inherits -/
def dataType (s : State) (t : TypeId) : Except ConceptError (Option DataType) := do
  let _ ← s.schema.requireKind t .attribute
  pure (s.schema.dataType? t)

/-- the regex that an attribute type declares itself -/
def regex (s : State) (t : TypeId) : Except ConceptError (Option String) := do
  pure ((← s.schema.requireKind t .attribute).regex?.map Pattern.source)

/-- the attribute types that are keys of the type -/
def keys (s : State) (t : TypeId) : ExtTreeSet TypeId :=
  .ofList ((s.schema.keyDeclarations t).map OwnershipDecl.owned)

/-! ## Instances -/

/-- the direct type of an instance -/
def typeOf (s : State) (id : ThingId) : Except ConceptError TypeId := do pure (← s.graph.require id).type

/-- the value of an attribute -/
def attributeValue (s : State) (id : ThingId) : Except ConceptError Value := do
  let thing ← s.graph.require id
  match thing.value? with
  | some v => pure v
  | none =>
    let kind := ((s.schema.get? thing.type).map TypeDef.kind).getD .entity
    throw (.kindMismatch (s.schema.labelOf thing.type) .attribute kind)

/-- identifiers in order, repetitions kept -/
def inOrder (ids : List ThingId) : List ThingId := ids.mergeSort fun a b => (compare a b).isLE

/-- the attributes that an instance holds, in order -/
def attributesOf (s : State) (owner : ThingId) : List ThingId := inOrder ((s.ownershipsOf owner).map OwnershipEdge.held)

/-- the instances that hold an attribute, in order -/
def holdersOf (s : State) (held : ThingId) : List ThingId := inOrder ((s.ownersOf held).map OwnershipEdge.owner)

/-- the players of a relation, none if it is something else -/
def rolePlayers (s : State) (relation : ThingId) : Except ConceptError (List RolePlayer) := do
  pure (← s.graph.require relation).rolePlayers

end ConceptGraph.State
