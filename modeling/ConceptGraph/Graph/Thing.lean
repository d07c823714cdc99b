/-
Instances. An entity is nothing but its type, a relation has players in roles, an attribute has a value. A player may
fill several roles, and a role may have several players, but each pair stands once.
-/
import ConceptGraph.Id
import ConceptGraph.Value

namespace ConceptGraph

open Std

/-- a role in a relation, and who fills it -/
structure RolePlayer where
  role : TypeId
  player : ThingId
  deriving DecidableEq, Repr

namespace RolePlayer

instance : Ord RolePlayer := ⟨compareLex (compareOn role) (compareOn player)⟩
instance : TransOrd RolePlayer := inferInstanceAs (TransCmp (compareLex (compareOn role) (compareOn player)))
instance : LawfulEqOrd RolePlayer where
  eq_of_compare {a b} h := by
    obtain ⟨hr, hp⟩ := compareLex_eq_eq.1 h
    have hr : a.role = b.role := LawfulEqOrd.eq_of_compare (α := TypeId) hr
    have hp : a.player = b.player := LawfulEqOrd.eq_of_compare (α := ThingId) hp
    cases a; cases b; simp_all

end RolePlayer

/-- what an instance is, besides its type -/
inductive ThingBody where
  | entity
  | relation (players : ExtTreeSet RolePlayer)
  | attribute (value : Value)

/-- an instance of an entity, relation or attribute type -/
structure Thing where
  /-- the type it was made of, not a supertype -/
  type : TypeId
  body : ThingBody

namespace Thing

/-- the value, of attributes -/
def value? (t : Thing) : Option Value :=
  match t.body with
  | .attribute v => some v
  | _ => none

/-- players and their roles, of relations -/
def rolePlayers? (t : Thing) : Option (ExtTreeSet RolePlayer) :=
  match t.body with
  | .relation ps => some ps
  | _ => none

/-- players and their roles in order; none unless it is a relation -/
def rolePlayers (t : Thing) : List RolePlayer := (t.rolePlayers?.map (·.toList)).getD []

/-- who fills the role -/
def playersOf (t : Thing) (role : TypeId) : List ThingId :=
  (t.rolePlayers.filter (·.role == role)).map RolePlayer.player

def isRelation (t : Thing) : Bool := t.rolePlayers?.isSome

def isAttribute (t : Thing) : Bool := t.value?.isSome

end Thing

end ConceptGraph
