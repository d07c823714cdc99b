/-
Edits of instances. Attributes are interned: putting a value that an attribute of the type holds already gives that
attribute. Holding an attribute makes a relation of the type that records the ownership, and the relation goes when
either end is deleted.
-/
import ConceptGraph.Rules.Deletion
import ConceptGraph.Rules.Instance
import ConceptGraph.Session.Transaction

namespace ConceptGraph.Transaction

open Std

/-! ## Instances -/

/-- a new instance of the type, which has to be of the kind -/
def create (t : TypeId) (kind : Kind) (body : ThingBody) : Edit ThingId := do
  let _ ← ask fun s => s.checkCreate t kind
  let id ← newThing
  let _ ← editGraph fun g => pure (g.insert id ⟨t, body⟩)
  record (.createThing id t)
  pure id

def createEntity (t : TypeId) : Edit ThingId := create t .entity .entity
def createRelation (t : TypeId) : Edit ThingId := create t .relation (.relation ∅)

/-- the attribute of the type that holds the value, made if there is none -/
def putAttribute (t : TypeId) (value : Value) : Edit ThingId := do
  ask fun s => s.checkPutAttribute t value
  match ← look fun s => s.graph.findAttribute? t value with
  | some id => pure id
  | none =>
    let id ← newThing
    let _ ← editGraph fun g => pure (g.insert id ⟨t, .attribute value⟩)
    record (.putAttribute id t value)
    pure id

/-! ## Roles -/

def addRolePlayer (relation : ThingId) (role : TypeId) (player : ThingId) : Edit Unit := do
  ask fun s => s.checkAddRolePlayer relation role player
  if ← editGraph fun g => g.addRolePlayer relation role player then record (.addRolePlayer relation role player)

/-- whether the player filled the role -/
def removeRolePlayer (relation : ThingId) (role : TypeId) (player : ThingId) : Edit Bool := do
  ask fun s => s.checkRemoveRolePlayer relation role
  let removed ← editGraph fun g => g.removeRolePlayer relation role player
  if removed then record (.removeRolePlayer relation role player)
  pure removed

/-! ## Attributes -/

/-- the relation that records that `owner` holds the attribute, made if there is none -/
def setHas (owner held : ThingId) : Edit ThingId := do
  let decl ← ask fun s => s.checkSetHas owner held
  match ← look fun s => s.ownershipBetween? owner held with
  | some relation => pure relation
  | none =>
    match ← look fun s => s.schema.implicitForOwned? decl.owned with
    | none => throw (.unknownType decl.owned)
    | some r =>
      let relation ← newThing
      let _ ← editGraph fun g => pure (g.insert relation ⟨r.relation, .relation ∅⟩)
      let _ ← editGraph fun g => g.addRolePlayer relation r.ownerRole owner
      let _ ← editGraph fun g => g.addRolePlayer relation r.valueRole held
      record (.setHas owner held relation)
      pure relation

/-- the graph without the instance, which has to be there -/
def removeThing (id : ThingId) : Edit Unit := do
  let _ ← editGraph fun g => g.remove id

/-- whether the owner held the attribute -/
def unsetHas (owner held : ThingId) : Edit Bool := do
  let _ ← ask fun s => s.thing owner
  let _ ← ask fun s => s.thing held
  match ← look fun s => s.ownershipBetween? owner held with
  | none => pure false
  | some relation =>
    removeThing relation
    record (.unsetHas owner held)
    pure true

/-- deletes the instance and the relations that record what it holds, or who holds it -/
def deleteThing (id : ThingId) : Edit Unit := do
  ask fun s => s.checkDeleteThing id
  let edges ← look fun s => s.ownershipsOf id ++ s.ownersOf id
  edges.forM fun e => removeThing e.relation
  removeThing id
  record (.deleteThing id)

end ConceptGraph.Transaction
