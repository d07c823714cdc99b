/-
The instances of a keyspace with their indexes. A graph knows nothing of schemas: it keeps its indexes in step and asks
no more. Attributes are interned, so that one type has at most one attribute of a value.
-/
import ConceptGraph.ConceptError
import ConceptGraph.Graph.Index

namespace ConceptGraph

open Std

/-- instances and the ways to find them -/
structure Graph where
  things : ExtTreeMap ThingId Thing
  byType : TypeIndex
  byValue : AttributeIndex
  byPlayer : PlayerIndex

namespace Graph

def empty : Graph := ⟨∅, .empty, ∅, .empty⟩

/-! ## Queries -/

def get? (g : Graph) (id : ThingId) : Option Thing := g.things[id]?

def contains (g : Graph) (id : ThingId) : Bool := g.things.contains id

def require (g : Graph) (id : ThingId) : Except ConceptError Thing :=
  match g.get? id with
  | some t => .ok t
  | none => .error (.unknownThing id)

def size (g : Graph) : Nat := g.things.size

/-- the instances whose direct type it is, in order -/
def ofType (g : Graph) (t : TypeId) : List (ThingId × Thing) :=
  (g.byType.toList t).filterMap fun id => (g.get? id).map fun thing => (id, thing)

def countOfType (g : Graph) (t : TypeId) : Nat := g.byType.count t

/-- the attribute of the type that holds the value -/
def findAttribute? (g : Graph) (t : TypeId) (v : Value) : Option ThingId := g.byValue.find? t v

/-- the relations in which it plays, with the roles -/
def relationsOf (g : Graph) (player : ThingId) : List Membership := g.byPlayer.toList player

/-! ## Edits -/

/-- a graph that stores the thing, and its identifier; an attribute that is there already stays, under its own -/
def insert (g : Graph) (id : ThingId) (thing : Thing) : ThingId × Graph :=
  let stored := { g with byType := g.byType.insert thing.type id, things := g.things.insert id thing }
  match thing.body with
  | .entity => (id, stored)
  | .relation ps => (id, { stored with byPlayer := ps.toList.foldl (fun ix p => PlayerIndex.add ix id p) g.byPlayer })
  | .attribute v =>
    match g.byValue.record thing.type v id with
    | .inl existing => (existing, g)
    | .inr byValue => (id, { stored with byValue := byValue })

/-- the players of a relation, if it is one -/
def playersOf? (g : Graph) (relation : ThingId) : Option (ExtTreeSet RolePlayer) :=
  (g.get? relation).bind Thing.rolePlayers?

/-- the graph in which a relation has these players -/
def setPlayers (g : Graph) (relation : ThingId) (ps : ExtTreeSet RolePlayer) : Graph :=
  { g with things := g.things.modify relation fun t => { t with body := .relation ps } }

/-- whether the relation had the player in the role, and the graph in which it has not -/
def detach (g : Graph) (relation : ThingId) (p : RolePlayer) : Bool × Graph :=
  match g.playersOf? relation with
  | some ps =>
    if ps.contains p then
      (true, { g.setPlayers relation (ps.erase p) with byPlayer := g.byPlayer.drop relation p })
    else (false, g)
  | none => (false, g)

/-- whether the relation had not yet the player in the role, and the graph in which it has -/
def addRolePlayer (g : Graph) (relation : ThingId) (role : TypeId) (player : ThingId) :
    Except ConceptError (Bool × Graph) :=
  if !g.contains player then .error (.unknownThing player)
  else match g.playersOf? relation with
    | some ps =>
      let p : RolePlayer := ⟨role, player⟩
      if ps.contains p then .ok (false, g)
      else .ok (true, { g.setPlayers relation (ps.insert p) with byPlayer := g.byPlayer.add relation p })
    | none => .error (.unknownThing relation)

/-- whether the relation had the player in the role, and the graph in which it has not -/
def removeRolePlayer (g : Graph) (relation : ThingId) (role : TypeId) (player : ThingId) :
    Except ConceptError (Bool × Graph) :=
  match g.playersOf? relation with
  | some _ => .ok (g.detach relation ⟨role, player⟩)
  | none => .error (.unknownThing relation)

/-- the indexes without what the thing itself has put there -/
def unindex (g : Graph) (id : ThingId) (thing : Thing) : Graph :=
  let g := { g with byType := g.byType.remove thing.type id }
  match thing.body with
  | .entity => g
  | .relation ps => { g with byPlayer := ps.toList.foldl (fun ix p => PlayerIndex.drop ix id p) g.byPlayer }
  | .attribute v => { g with byValue := g.byValue.remove thing.type v }

/-- the thing, and the graph without it; the relations in which it played are kept without it -/
def remove (g : Graph) (id : ThingId) : Except ConceptError (Thing × Graph) :=
  match g.get? id with
  | none => .error (.unknownThing id)
  | some thing =>
    let g := { g with things := g.things.erase id }.unindex id thing
    .ok (thing, (g.relationsOf id).foldl (fun g m => (g.detach m.relation ⟨m.role, id⟩).2) g)

end Graph

end ConceptGraph
