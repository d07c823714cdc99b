/-
A schema and the instances of its types, and what the two say together.

An instance of a type is also one of its supertypes. That `o` holds an attribute is recorded by a relation between the
two, of the type that records the ownership of the attribute's type; such an `OwnershipEdge` is found from either end.
-/
import ConceptGraph.Graph.Basic
import ConceptGraph.Schema.Resolution

namespace ConceptGraph

open Std

/-- schema and instances of a keyspace at one point in time -/
structure State where
  schema : Schema
  graph : Graph

/-- the relation that records that an instance holds an attribute -/
structure OwnershipEdge where
  relation : ThingId
  owner : ThingId
  held : ThingId
  deriving DecidableEq, Repr

namespace State

/-! ## Instances -/

/-- the instances of the type and its subtypes, by types nearest first, then in order -/
def instances (s : State) (t : TypeId) : List (ThingId × Thing) := (s.schema.subtypes t).flatMap s.graph.ofType

def hasInstances (s : State) (t : TypeId) : Bool := (s.schema.subtypes t).any fun sub => 0 < s.graph.countOfType sub

/-- the identity of the value that an attribute holds -/
def valueKey? (s : State) (id : ThingId) : Option ValueKey := ((s.graph.get? id).bind Thing.value?).map Value.key

/-! ## Ownership -/

/-- the edge that a relation records, with the role of either end -/
def edge? (s : State) (relation : ThingId) : Option (ImplicitOwnership × Thing) := do
  let thing ← s.graph.get? relation
  let record ← s.schema.implicitForRelation? thing.type
  pure (record, thing)

/-- the edges in which the instance holds an attribute -/
def ownershipsOf (s : State) (owner : ThingId) : List OwnershipEdge :=
  (s.graph.relationsOf owner).filterMap fun m => do
    let (record, thing) ← s.edge? m.relation
    if m.role = record.ownerRole then
      (thing.playersOf record.valueRole).head?.map fun held => ⟨m.relation, owner, held⟩
    else none

/-- the edges in which the attribute is held -/
def ownersOf (s : State) (held : ThingId) : List OwnershipEdge :=
  (s.graph.relationsOf held).filterMap fun m => do
    let (record, thing) ← s.edge? m.relation
    if m.role = record.valueRole then
      (thing.playersOf record.ownerRole).head?.map fun owner => ⟨m.relation, owner, held⟩
    else none

/-- the relation that records that `owner` holds the attribute -/
def ownershipBetween? (s : State) (owner held : ThingId) : Option ThingId :=
  ((s.ownershipsOf owner).find? (·.held == held)).map OwnershipEdge.relation

/-- the attributes of the type or its subtypes that the instance holds -/
def heldUnder (s : State) (owner : ThingId) (t : TypeId) : List ThingId :=
  ((s.ownershipsOf owner).filter fun e => (s.graph.get? e.held).any fun a => s.schema.isSubtypeOf a.type t).map
    OwnershipEdge.held

/-- the edges whose attribute is of the type or a subtype and holds the value -/
def ownershipsOfValue (s : State) (t : TypeId) (value : ValueKey) : List OwnershipEdge :=
  ((s.instances t).filter fun a => a.2.value?.any fun v => v.key == value).flatMap fun a => s.ownersOf a.1

end State

end ConceptGraph
