/-
Labels of schema elements, and the four kinds of element.

A label that starts with `@` belongs to a type the library made itself. Ownership of an attribute type labelled `a` is
recorded by the relation type `@has-a` with the roles `@has-a:owner` and `@has-a:value`; as users can write neither a
leading `@` nor a `:`, no label of theirs can meet one of these, and two attribute labels never share one.
-/
namespace ConceptGraph

/-- unique, changeable name of a schema element -/
abbrev Label := String

namespace Label

/-- first character of the labels the library makes -/
def reservedMark : Char := '@'

/-- stands between the label of an ownership relation and those of its roles -/
def scopeMark : Char := ':'

/-- whether the label is one of a type the library made -/
def isReserved (l : Label) : Bool := l.toList.head? == some reservedMark

/-- label of the relation type that records ownership of the attribute type labelled `a` -/
def ownershipRelation (a : Label) : Label := "@has-" ++ a

/-- label of the owner's role in `ownershipRelation a` -/
def ownerRole (a : Label) : Label := ownershipRelation a ++ ":owner"

/-- label of the attribute's role in `ownershipRelation a` -/
def valueRole (a : Label) : Label := ownershipRelation a ++ ":value"

end Label

/-- the kinds of schema element -/
inductive Kind where
  | entity
  | relation
  | attribute
  | role
  deriving DecidableEq, Repr

namespace Kind

/-- how a kind is called in messages -/
def describe : Kind → String
  | .entity => "entity type"
  | .relation => "relation type"
  | .attribute => "attribute type"
  | .role => "role"

/-- how a kind is written in data -/
def name : Kind → String
  | .entity => "entity"
  | .relation => "relation"
  | .attribute => "attribute"
  | .role => "role"

def all : List Kind := [.entity, .relation, .attribute, .role]

/-- the kind of that exact name -/
def ofName? (text : String) : Option Kind := all.find? fun k => k.name == text

/-- roles have no instances, the other kinds can have some -/
def isThingType (k : Kind) : Bool := k != .role

instance : ToString Kind := ⟨describe⟩

end Kind

end ConceptGraph
