/-
What may be deleted: a type without subtypes and direct instances, a role that nobody fills, an instance that is not the
record of an ownership.
-/
import ConceptGraph.Rules.Guard

namespace ConceptGraph.State

/-- a relation in which the role is filled -/
def filledRole (s : State) (role : TypeId) : Option ThingId :=
  ((s.schema.defs.toList.filter fun d => d.2.relatesRole role).findSome? fun d =>
    (s.instances d.1).find? fun i => !(i.2.playersOf role).isEmpty).map (·.1)

def checkDeleteType (s : State) (t : TypeId) : Except ConceptError Unit := do
  let d ← s.editableAny t
  if !(s.schema.directSubtypes t).isEmpty then
    throw (.violationOn .hasSubtypes (d.label ++ " still has subtypes") t)
  if 0 < s.graph.countOfType t then
    throw (.violationOn .hasInstances (d.label ++ " still has instances") t)
  if d.kind = .role then
    match s.filledRole t with
    | some relation => throw (inUse (toString relation ++ " still fills " ++ d.label) t relation)
    | none => pure ()

def checkDeleteThing (s : State) (id : ThingId) : Except ConceptError Unit := do
  let thing ← s.thing id
  if s.schema.isImplicitRelation thing.type then
    throw (.constraintViolation
      ⟨.implicitType, toString id ++ " is an ownership, remove it with unset_has", none, some id⟩)

end ConceptGraph.State
