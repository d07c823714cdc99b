/-
Declaring and withdrawing what instances of a type may do. Declaring asks only for elements of the right kinds that
users may edit. Withdrawing is refused as long as an instance relies on the declaration, that is, does what it allows
while no other declaration on its supertypes allows it.
-/
import ConceptGraph.Rules.Guard

namespace ConceptGraph.State

/-! ## Roles -/

/-- whether it can be declared that instances play the role -/
def checkPlays (s : State) (t role : TypeId) : Except ConceptError Unit := do
  let _ ← s.editableThingType t
  let _ ← s.editable role .role

def checkUnplay (s : State) (t role : TypeId) : Except ConceptError Unit := do
  let d ← s.editableThingType t
  let _ ← s.editable role .role
  if d.plays.contains role then
    checkEach (s.instances t) fun i =>
      let plays := (s.graph.relationsOf i.1).any (·.role == role)
      if plays && !s.schema.playsWithout (some (t, role)) i.2.type role then
        some (inUse (toString i.1 ++ " still plays " ++ s.schema.labelOf role ++ " through " ++ d.label) t i.1)
      else none

/-- whether it can be declared that relations have players in the role -/
def checkRelates (s : State) (t role : TypeId) : Except ConceptError Unit := do
  let _ ← s.editable t .relation
  let _ ← s.editable role .role

def checkUnrelate (s : State) (t role : TypeId) : Except ConceptError Unit := do
  let d ← s.editable t .relation
  let _ ← s.editable role .role
  if d.relatesRole role then
    checkEach (s.instances t) fun i =>
      let filled := !(i.2.playersOf role).isEmpty
      if filled && !s.schema.relatesWithout (some (t, role)) i.2.type role then
        some (inUse (toString i.1 ++ " still fills " ++ s.schema.labelOf role) t i.1)
      else none

/-! ## Attributes -/

/-- whether it can be declared that instances hold attributes, or that a key is a key no longer -/
def checkHas (s : State) (t owned : TypeId) : Except ConceptError Unit := do
  let _ ← s.editableThingType t
  let _ ← s.editable owned .attribute

def checkUnhas (s : State) (t owned : TypeId) : Except ConceptError Unit := do
  let d ← s.editableThingType t
  let _ ← s.editable owned .attribute
  if d.owns.contains owned then
    checkEach (s.instances t) fun i =>
      (s.ownershipsOf i.1).findSome? fun e =>
        match s.thing e.held with
        | .error fault => some fault
        | .ok held =>
          if s.schema.isSubtypeOf held.type owned
              && (s.schema.ownershipWithout (some (t, owned)) i.2.type held.type).isNone then
            some (inUse (toString i.1 ++ " still holds " ++ toString e.held ++ " through " ++ d.label) t i.1)
          else none

end ConceptGraph.State
