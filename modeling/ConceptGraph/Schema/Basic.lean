/-
The schema of a keyspace: its elements under their identifiers and labels, and their supertypes. Thing types share one
forest, whose root is `thing`; roles have their own, whose root is `role`.

Edits keep definitions, labels and forests in step, and look no further: whether instances permit an edit is for the
rules to say.
-/
import ConceptGraph.ConceptError
import ConceptGraph.Hierarchy
import ConceptGraph.Schema.TypeDef

namespace ConceptGraph

open Std

/-- the five types every schema starts with -/
structure MetaTypes where
  thingRoot : TypeId
  entityRoot : TypeId
  relationRoot : TypeId
  attributeRoot : TypeId
  roleRoot : TypeId
  deriving DecidableEq, Repr

namespace MetaTypes

/-- what new types of the kind are made under -/
def ofKind (m : MetaTypes) : Kind → TypeId
  | .entity => m.entityRoot
  | .relation => m.relationRoot
  | .attribute => m.attributeRoot
  | .role => m.roleRoot

def toList (m : MetaTypes) : List TypeId := [m.thingRoot, m.entityRoot, m.relationRoot, m.attributeRoot, m.roleRoot]

def contains (m : MetaTypes) (t : TypeId) : Bool := m.toList.contains t

/-- five identifiers, and the source after them -/
def take (ids : IdSource) : MetaTypes × IdSource :=
  let (t, ids) := ids.takeType
  let (e, ids) := ids.takeType
  let (r, ids) := ids.takeType
  let (a, ids) := ids.takeType
  let (o, ids) := ids.takeType
  (⟨t, e, r, a, o⟩, ids)

end MetaTypes

/-- schema elements with their labels and supertypes -/
structure Schema where
  defs : ExtTreeMap TypeId TypeDef
  labels : ExtTreeMap Label TypeId
  things : Hierarchy TypeId
  roles : Hierarchy TypeId
  metaTypes : MetaTypes
  /-- ownership records by the attribute type owned -/
  implicitByOwned : ExtTreeMap TypeId ImplicitOwnership
  /-- ownership records by their relation type -/
  implicitByRelation : ExtTreeMap TypeId ImplicitOwnership

namespace Schema

/-! ## Lookups -/

def isMeta (s : Schema) (t : TypeId) : Bool := s.metaTypes.contains t

def get? (s : Schema) (t : TypeId) : Option TypeDef := s.defs[t]?

def idOf? (s : Schema) (label : Label) : Option TypeId := s.labels[label]?

def size (s : Schema) : Nat := s.defs.size

/-- the definition, which has to be there -/
def require (s : Schema) (t : TypeId) : Except ConceptError TypeDef :=
  match s.get? t with
  | some d => .ok d
  | none => .error (.unknownType t)

/-- the definition, which has to be there and of that kind -/
def requireKind (s : Schema) (t : TypeId) (kind : Kind) : Except ConceptError TypeDef := do
  let d ← s.require t
  if d.kind = kind then pure d else throw (.kindMismatch d.label kind d.kind)

/-- the definition, which has to be there and not that of a role -/
def requireThingType (s : Schema) (t : TypeId) : Except ConceptError TypeDef := do
  let d ← s.require t
  if d.kind.isThingType then pure d else throw (.kindMismatch d.label .entity d.kind)

/-- the label, or else the identifier -/
def labelOf (s : Schema) (t : TypeId) : String := ((s.get? t).map TypeDef.label).getD (toString t)

/-! ## Supertypes -/

/-- the forest an element is in -/
def hierarchyOf (s : Schema) (t : TypeId) : Hierarchy TypeId := if s.roles.contains t then s.roles else s.things

/-- the element and its ancestors, nearest first -/
def supertypes (s : Schema) (t : TypeId) : List TypeId := (s.hierarchyOf t).supertypes t

/-- the element and its descendants, nearest first -/
def subtypes (s : Schema) (t : TypeId) : List TypeId := (s.hierarchyOf t).subtypes t

def directSupertype? (s : Schema) (t : TypeId) : Option TypeId := (s.hierarchyOf t).parent? t

def directSubtypes (s : Schema) (t : TypeId) : List TypeId := (s.hierarchyOf t).children t

/-- whether `t` is `ancestor` or below it -/
def isSubtypeOf (s : Schema) (t ancestor : TypeId) : Bool := (s.hierarchyOf t).isSubtypeOf t ancestor

def depth (s : Schema) (t : TypeId) : Nat := (s.hierarchyOf t).depth t

/-! ## Ownership records -/

def implicitForOwned? (s : Schema) (t : TypeId) : Option ImplicitOwnership := s.implicitByOwned[t]?

def implicitForRelation? (s : Schema) (t : TypeId) : Option ImplicitOwnership := s.implicitByRelation[t]?

/-- whether it is the owner's role in a record -/
def isOwnerRole (s : Schema) (t : TypeId) : Bool := s.implicitByOwned.toList.any fun r => r.2.ownerRole == t

def registerImplicit (s : Schema) (r : ImplicitOwnership) : Schema :=
  { s with
    implicitByOwned := s.implicitByOwned.insert r.owned r
    implicitByRelation := s.implicitByRelation.insert r.relation r }

/-- the schema without the record of an attribute type -/
def unregisterImplicit (s : Schema) (t : TypeId) : Schema :=
  match s.implicitForOwned? t with
  | some r =>
    { s with
      implicitByOwned := s.implicitByOwned.erase t
      implicitByRelation := s.implicitByRelation.erase r.relation }
  | none => s

/-! ## Edits -/

/-- what a refusal by a forest means to a schema -/
def hierarchyFault (s : Schema) : HierarchyError TypeId → ConceptError
  | .unknownNode t => .unknownType t
  | .duplicateNode t => .labelAlreadyInUse (s.labelOf t)
  | .cycle t p => .cycle (s.labelOf t) (s.labelOf p)
  | .hasChildren t => .violation .hasSubtypes (s.labelOf t ++ " still has subtypes")
  | .root t => .violation .metaType (s.labelOf t ++ " is a root type")

/-- an edit of a forest as part of an edit of the schema -/
def liftEdit (s : Schema) {α : Type} (r : Except (HierarchyError TypeId) α) : Except ConceptError α :=
  r.mapError s.hierarchyFault

/-- refused if another element than `owner` has the label -/
def checkLabelFree (s : Schema) (label : Label) (owner : Option TypeId) : Except ConceptError Unit :=
  match s.idOf? label with
  | some holder => if some holder = owner then pure () else throw (.labelAlreadyInUse label)
  | none => pure ()

/-- the schema with the forest of roles or that of thing types replaced -/
def setHierarchy (s : Schema) (ofRoles : Bool) (h : Hierarchy TypeId) : Schema :=
  if ofRoles then { s with roles := h } else { s with things := h }

/-- the schema with one more element -/
def insert (s : Schema) (t : TypeId) (d : TypeDef) (supertype : TypeId) : Except ConceptError Schema := do
  s.checkLabelFree d.label none
  let ofRoles := d.kind == .role
  let h ← s.liftEdit ((if ofRoles then s.roles else s.things).insert t supertype)
  pure { s.setHierarchy ofRoles h with defs := s.defs.insert t d, labels := s.labels.insert d.label t }

/-- the schema with a definition changed; its label stays -/
def change (s : Schema) (t : TypeId) (f : TypeDef → TypeDef) : Except ConceptError Schema := do
  let d ← s.require t
  pure { s with defs := s.defs.insert t (f d) }

/-- the schema with an element under another label -/
def relabel (s : Schema) (t : TypeId) (label : Label) : Except ConceptError Schema := do
  s.checkLabelFree label (some t)
  let d ← s.require t
  pure { s with
    defs := s.defs.insert t { d with label := label }
    labels := (s.labels.erase d.label).insert label t }

/-- the direct supertype before, and the schema with the element under another one -/
def reparent (s : Schema) (t supertype : TypeId) : Except ConceptError (Option TypeId × Schema) := do
  let (old, h) ← s.liftEdit ((s.hierarchyOf t).reparent t supertype)
  pure (old, s.setHierarchy (s.roles.contains t) h)

/-- the definition of an element without subtypes, and the schema without it -/
def remove (s : Schema) (t : TypeId) : Except ConceptError (TypeDef × Schema) := do
  let h ← s.liftEdit ((s.hierarchyOf t).remove t)
  let d ← s.require t
  pure (d, { s.setHierarchy (s.roles.contains t) h with defs := s.defs.erase t, labels := s.labels.erase d.label })

/-! ## The schema to start from -/

/-- the five types alone; all but `role` are abstract -/
def bootstrap (m : MetaTypes) : Schema :=
  let start (label : Label) (kind : Kind) (isAbstract : Bool) : TypeDef :=
    { TypeDef.blank label (.blank kind) with isAbstract := isAbstract }
  let elements : List (TypeId × TypeDef) :=
    [(m.thingRoot, start "thing" .entity true), (m.roleRoot, start "role" .role false),
      (m.entityRoot, start "entity" .entity true), (m.relationRoot, start "relation" .relation true),
      (m.attributeRoot, start "attribute" .attribute true)]
  { defs := .ofList elements
    labels := .ofList (elements.map fun e => (e.2.label, e.1))
    things := Hierarchy.star m.thingRoot [m.entityRoot, m.relationRoot, m.attributeRoot]
    roles := Hierarchy.star m.roleRoot []
    metaTypes := m
    implicitByOwned := ∅
    implicitByRelation := ∅ }

end Schema

end ConceptGraph
