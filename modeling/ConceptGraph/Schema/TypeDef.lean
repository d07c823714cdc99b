/-
Schema elements: entity, relation and attribute types, and roles. A definition holds what the element declares itself;
what it inherits is found by walking up its supertypes.

Whoever owns an attribute type does so through a relation type that the library makes for it, with a role for the owner
and one for the attribute. `ImplicitOwnership` names the four.
-/
import ConceptGraph.Id
import ConceptGraph.Label
import ConceptGraph.Pattern

namespace ConceptGraph

open Std

/-- how a type owns an attribute type -/
inductive Ownership where
  /-- instances hold any number of attributes -/
  | has
  /-- instances hold exactly one attribute, and no two of them the same value -/
  | key
  deriving DecidableEq, Repr

namespace Ownership

def isKey (o : Ownership) : Bool := o == key

def name : Ownership → String
  | has => "has"
  | key => "key"

/-- both declarations together: a key if one of them is -/
def join (a b : Ownership) : Ownership := if a.isKey || b.isKey then key else has

end Ownership

/-- what an element is, by its kind -/
inductive TypeBody where
  | entity
  | relation (relates : ExtTreeSet TypeId) (implicitFor : Option TypeId)
  | attribute (dataType : Option DataType) (regex : Option Pattern)
  | role

namespace TypeBody

def kind : TypeBody → Kind
  | .entity => .entity
  | .relation .. => .relation
  | .attribute .. => .attribute
  | .role => .role

/-- nothing declared yet -/
def blank : Kind → TypeBody
  | .entity => .entity
  | .relation => .relation ∅ none
  | .attribute => .attribute none none
  | .role => .role

end TypeBody

/-- the definition of a schema element -/
structure TypeDef where
  label : Label
  /-- abstract types have no direct instances -/
  isAbstract : Bool
  plays : ExtTreeSet TypeId
  owns : ExtTreeMap TypeId Ownership
  body : TypeBody

namespace TypeDef

/-- nothing declared yet -/
def blank (label : Label) (body : TypeBody) : TypeDef := ⟨label, false, ∅, ∅, body⟩

def kind (d : TypeDef) : Kind := d.body.kind

/-- whether the library made it -/
def isImplicit (d : TypeDef) : Bool := Label.isReserved d.label

/-- the data type it declares, of attribute types -/
def dataType? (d : TypeDef) : Option DataType :=
  match d.body with
  | .attribute dataType _ => dataType
  | _ => none

/-- the regex it declares, of attribute types -/
def regex? (d : TypeDef) : Option Pattern :=
  match d.body with
  | .attribute _ regex => regex
  | _ => none

/-- the roles it relates, of relation types -/
def relates? (d : TypeDef) : Option (ExtTreeSet TypeId) :=
  match d.body with
  | .relation relates _ => some relates
  | _ => none

/-- the attribute type whose ownership it records, of relation types the library made -/
def implicitFor? (d : TypeDef) : Option TypeId :=
  match d.body with
  | .relation _ implicitFor => implicitFor
  | _ => none

/-- whether it declares that it relates the role -/
def relatesRole (d : TypeDef) (role : TypeId) : Bool := d.relates?.any (·.contains role)

/-! ## Changes -/

/-- the definition with the roles it relates changed, if it is a relation type -/
def changeRelates (d : TypeDef) (f : ExtTreeSet TypeId → ExtTreeSet TypeId) : TypeDef :=
  match d.body with
  | .relation relates implicitFor => { d with body := .relation (f relates) implicitFor }
  | _ => d

/-- the definition with that data type, if it is an attribute type -/
def setDataType (d : TypeDef) (dataType : Option DataType) : TypeDef :=
  match d.body with
  | .attribute _ regex => { d with body := .attribute dataType regex }
  | _ => d

/-- the definition with that regex, if it is an attribute type -/
def setRegex (d : TypeDef) (regex : Option Pattern) : TypeDef :=
  match d.body with
  | .attribute dataType _ => { d with body := .attribute dataType regex }
  | _ => d

end TypeDef

/-- the types that record the ownership of one attribute type -/
structure ImplicitOwnership where
  /-- the attribute type that is owned -/
  owned : TypeId
  relation : TypeId
  ownerRole : TypeId
  valueRole : TypeId
  deriving DecidableEq, Repr

end ConceptGraph
