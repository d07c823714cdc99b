/-
What a schema or its instances can break. A violation says which rule is broken, tells it to the user, and names the
schema element and the instance concerned where there is one.
-/
import ConceptGraph.Id

namespace ConceptGraph

inductive ViolationKind where
  /-- the data type of an attribute type with instances stays what it is -/
  | immutableDataType
  /-- a value does not match a regex of its type -/
  | regexViolation
  /-- an instance relies on a declaration -/
  | inUseConstraint
  /-- an abstract type has no direct instances -/
  | abstractType
  /-- a key is missing, is there twice, or is shared -/
  | keyViolation
  /-- the owner's type does not own the attribute's type -/
  | notOwnable
  /-- the player's type does not play the role -/
  | roleNotPlayable
  /-- the relation's type does not relate the role -/
  | roleNotRelated
  /-- the type still has instances -/
  | hasInstances
  /-- the type still has subtypes -/
  | hasSubtypes
  /-- the type is one of the five every schema starts with -/
  | metaType
  /-- the type records an ownership declaration -/
  | implicitType
  deriving DecidableEq, Repr

namespace ViolationKind

def all : List ViolationKind :=
  [.immutableDataType, .regexViolation, .inUseConstraint, .abstractType, .keyViolation, .notOwnable, .roleNotPlayable,
    .roleNotRelated, .hasInstances, .hasSubtypes, .metaType, .implicitType]

def name : ViolationKind → String
  | .immutableDataType => "immutable data type"
  | .regexViolation => "regex violation"
  | .inUseConstraint => "constraint in use"
  | .abstractType => "abstract type"
  | .keyViolation => "key violation"
  | .notOwnable => "attribute not ownable"
  | .roleNotPlayable => "role not playable"
  | .roleNotRelated => "role not related"
  | .hasInstances => "type has instances"
  | .hasSubtypes => "type has subtypes"
  | .metaType => "meta type"
  | .implicitType => "implicit type"

instance : ToString ViolationKind := ⟨name⟩

def ofName? (text : String) : Option ViolationKind := all.find? fun k => k.name == text

end ViolationKind

/-- one broken rule -/
structure Violation where
  kind : ViolationKind
  message : String
  typeId : Option TypeId
  thingId : Option ThingId
  deriving DecidableEq, Repr

instance : ToString Violation := ⟨fun v => v.kind.name ++ ": " ++ v.message⟩

end ConceptGraph
