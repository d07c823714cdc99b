/-
Conditions that many rules share, and how a rule reports the first instance that stands in its way.

The types every schema starts with are not for users to edit, nor are the types that record ownerships.
-/
import ConceptGraph.State.Basic

namespace ConceptGraph

/-- refused with the first fault that `f` finds -/
def checkEach {α : Type} (xs : List α) (f : α → Option ConceptError) : Except ConceptError Unit :=
  match xs.findSome? f with
  | some e => .error e
  | none => .ok ()

/-- refused with the fault, if there is one -/
def refuse : Option ConceptError → Except ConceptError Unit
  | some e => .error e
  | none => .ok ()

namespace State

/-- the instance, which has to be there -/
def thing (s : State) (id : ThingId) : Except ConceptError Thing := s.graph.require id

def notMeta (s : State) (t : TypeId) (d : TypeDef) : Except ConceptError Unit :=
  if s.schema.isMeta t then throw (.violation .metaType (d.label ++ " is a meta type and cannot be modified"))
  else pure ()

def notImplicit (d : TypeDef) : Except ConceptError Unit :=
  if d.isImplicit then throw (.violation .implicitType (d.label ++ " is managed through has and key"))
  else pure ()

/-- the definition of an element that users may edit -/
def editableAny (s : State) (t : TypeId) : Except ConceptError TypeDef := do
  let d ← s.schema.require t
  s.notMeta t d
  notImplicit d
  pure d

/-- the definition of an element of the kind that users may edit -/
def editable (s : State) (t : TypeId) (kind : Kind) : Except ConceptError TypeDef := do
  let d ← s.schema.requireKind t kind
  s.notMeta t d
  notImplicit d
  pure d

/-- the definition of an entity, relation or attribute type that users may edit -/
def editableThingType (s : State) (t : TypeId) : Except ConceptError TypeDef := do
  let d ← s.schema.requireThingType t
  s.notMeta t d
  notImplicit d
  pure d

/-- refused for a type without direct instances -/
def concrete (t : TypeId) (d : TypeDef) : Except ConceptError Unit :=
  if d.isAbstract then throw (.violationOn .abstractType (d.label ++ " is abstract and cannot have instances") t)
  else pure ()

/-- an instance relies on a declaration -/
def inUse (message : String) (t : TypeId) (id : ThingId) : ConceptError := .violationBy .inUseConstraint message t id

end State

end ConceptGraph
