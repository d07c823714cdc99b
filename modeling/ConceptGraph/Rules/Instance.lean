/-
Making instances, filling roles and holding attributes.

An attribute may be held if the owner's type has a declaration for it, and not if that would give the owner a second
value of a key, or a value of a key that another instance of the declaring type holds.
-/
import ConceptGraph.Rules.Conformance

namespace ConceptGraph.State

/-- the definition of a type of the kind that can have new instances -/
def checkCreate (s : State) (t : TypeId) (kind : Kind) : Except ConceptError TypeDef := do
  let d ← s.schema.requireKind t kind
  notImplicit d
  concrete t d
  pure d

def checkPutAttribute (s : State) (t : TypeId) (value : Value) : Except ConceptError Unit := do
  let d ← s.schema.requireKind t .attribute
  let expected := s.schema.dataType? t
  if expected ≠ some value.dataType then throw (.typeMismatch d.label expected value.dataType)
  concrete t d
  match value.string?.bind (s.mismatch? t) with
  | some (source, p) => throw (.violationOn .regexViolation
      (toString value ++ " does not match " ++ toString p ++ " of " ++ s.schema.labelOf source) source)
  | none => pure ()

/-! ## Roles -/

/-- the relation, if it is one whose players users may change -/
def relation (s : State) (id : ThingId) : Except ConceptError Thing := do
  let thing ← s.thing id
  let d ← s.schema.require thing.type
  if !thing.isRelation then throw (.kindMismatch d.label .relation d.kind)
  notImplicit d
  pure thing

def checkAddRolePlayer (s : State) (relation : ThingId) (role : TypeId) (player : ThingId) :
    Except ConceptError Unit := do
  let rel ← s.relation relation
  let d ← s.schema.requireKind role .role
  notImplicit d
  if !s.schema.relatesRole rel.type role then
    throw (.violationBy .roleNotRelated (s.schema.labelOf rel.type ++ " does not relate " ++ d.label) rel.type relation)
  let p ← s.thing player
  if !s.schema.playsRole p.type role then
    throw (.violationBy .roleNotPlayable (s.schema.labelOf p.type ++ " does not play " ++ d.label) p.type player)

def checkRemoveRolePlayer (s : State) (relation : ThingId) (role : TypeId) : Except ConceptError Unit := do
  let _ ← s.relation relation
  let _ ← s.schema.requireKind role .role

/-! ## Attributes -/

/-- why the owner cannot hold one more attribute under the key, if it cannot -/
def keyFault (s : State) (owner : ThingId) (value : Option Value) (key : OwnershipDecl) : Option ConceptError :=
  let fault (message : String) : ConceptError := .violationBy .keyViolation message key.owner owner
  match s.heldUnder owner key.owned with
  | other :: _ => some (fault (toString owner ++ " already holds the " ++ s.schema.labelOf key.owned ++ " key "
      ++ toString other))
  | [] => do
    let value ← value
    let taken ← (s.ownershipsOfValue key.owned value.key).find? fun e =>
      e.owner != owner && (s.graph.get? e.owner).any fun other => s.schema.isSubtypeOf other.type key.owner
    some (fault (toString value ++ " is already the " ++ s.schema.labelOf key.owned ++ " key of "
      ++ toString taken.owner))

/-- the declaration that lets the owner hold the attribute -/
def checkSetHas (s : State) (owner held : ThingId) : Except ConceptError OwnershipDecl := do
  let o ← s.thing owner
  let a ← s.thing held
  if !a.isAttribute then
    let d ← s.schema.require a.type
    throw (.kindMismatch d.label .attribute d.kind)
  match s.schema.ownership? o.type a.type with
  | none => throw (.violationBy .notOwnable
      (s.schema.labelOf o.type ++ " does not own " ++ s.schema.labelOf a.type) o.type owner)
  | some decl =>
    if (s.ownershipBetween? owner held).isSome then pure decl
    else
      let keys := (s.schema.keyDeclarations o.type).filter fun key => s.schema.isSubtypeOf a.type key.owned
      checkEach keys (s.keyFault owner a.value?)
      pure decl

end ConceptGraph.State
