/-
What an element may do by what it and its ancestors declare. Walks go up from the element, so the nearest declaration
comes first. The functions that end in `Without` answer as if one declaration, given by who declares and what, were not
there.
-/
import ConceptGraph.Schema.Basic

namespace ConceptGraph

open Std

/-- a declaration of ownership: who declares it, of which attribute type, and how -/
structure OwnershipDecl where
  owner : TypeId
  owned : TypeId
  ownership : Ownership
  deriving DecidableEq, Repr

namespace Schema

/-- the element and its ancestors with their definitions, nearest first -/
def lineage (s : Schema) (t : TypeId) : List (TypeId × TypeDef) :=
  (s.supertypes t).filterMap fun a => (s.get? a).map fun d => (a, d)

/-! ## Attribute types -/

/-- the data type it declares, or else the nearest one above it -/
def dataType? (s : Schema) (t : TypeId) : Option DataType := (s.lineage t).findSome? fun a => a.2.dataType?

/-- the regexes that apply, its own first -/
def patterns (s : Schema) (t : TypeId) : List (TypeId × Pattern) :=
  (s.lineage t).filterMap fun a => a.2.regex?.map fun p => (a.1, p)

/-! ## Roles -/

def playsWithout (s : Schema) (ignored : Option (TypeId × TypeId)) (t role : TypeId) : Bool :=
  (s.lineage t).any fun a => some (a.1, role) != ignored && a.2.plays.contains role

/-- whether instances may fill the role -/
def playsRole (s : Schema) (t role : TypeId) : Bool := s.playsWithout none t role

def playableRoles (s : Schema) (t : TypeId) : ExtTreeSet TypeId :=
  (s.lineage t).foldl (fun roles a => roles.insertMany a.2.plays.toList) ∅

def relatesWithout (s : Schema) (ignored : Option (TypeId × TypeId)) (t role : TypeId) : Bool :=
  (s.lineage t).any fun a => some (a.1, role) != ignored && a.2.relatesRole role

/-- whether instances may have players in the role -/
def relatesRole (s : Schema) (t role : TypeId) : Bool := s.relatesWithout none t role

def relatedRoles (s : Schema) (t : TypeId) : ExtTreeSet TypeId :=
  (s.lineage t).foldl (fun roles a => roles.insertMany ((a.2.relates?.map (·.toList)).getD [])) ∅

/-! ## Ownership -/

/-- the nearest declaration above the owner, and of its declarations the nearest above the attribute type -/
def ownershipWithout (s : Schema) (ignored : Option (TypeId × TypeId)) (owner owned : TypeId) : Option OwnershipDecl :=
  (s.lineage owner).findSome? fun a =>
    (s.supertypes owned).findSome? fun declared =>
      if some (a.1, declared) = ignored then none
      else a.2.owns[declared]?.map fun o => ⟨a.1, declared, o⟩

/-- the declaration that lets instances of `owner` hold attributes of `owned` -/
def ownership? (s : Schema) (owner owned : TypeId) : Option OwnershipDecl := s.ownershipWithout none owner owned

/-- the attribute types that instances may hold; a key anywhere above makes it a key -/
def ownedAttributes (s : Schema) (t : TypeId) : ExtTreeMap TypeId Ownership :=
  (s.lineage t).foldl
    (fun owned a => a.2.owns.toList.foldl (fun owned o => owned.alter o.1 fun e => some ((e.getD o.2).join o.2)) owned) ∅

/-- the declarations of keys that apply, nearest declarer first -/
def keyDeclarations (s : Schema) (t : TypeId) : List OwnershipDecl :=
  (s.lineage t).flatMap fun a =>
    (a.2.owns.toList.filter (·.2.isKey)).map fun o => ⟨a.1, o.1, o.2⟩

/-- whether any type declares that it owns the attribute type -/
def isOwnedAnywhere (s : Schema) (t : TypeId) : Bool := s.defs.toList.any fun d => d.2.owns.contains t

/-- whether the relation type records an ownership -/
def isImplicitRelation (s : Schema) (t : TypeId) : Bool := (s.get? t).any fun d => d.implicitFor?.isSome

end Schema

end ConceptGraph
