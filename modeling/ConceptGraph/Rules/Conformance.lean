/-
Moving a type: everything at or below it inherits from new ancestors, so its instances must conform to the schema as it
will be. Nothing else in the schema changes, so nothing else has to be looked at.

- `dataTypeFault`: no type declares another data type than it would inherit.
- `bodyFault`: values have the type's data type and match its regexes; relations relate the roles that are filled.
- `roleFault`: the instance plays the roles it fills.
- `holdingFault`: what it holds, and what holds it, is declared.
-/
import ConceptGraph.Rules.Naming

namespace ConceptGraph.State

/-- a type that declares one data type and inherits another -/
def dataTypeFault (s : State) (t : TypeId) : Option ConceptError := do
  let declared ← (← s.schema.get? t).dataType?
  let inherited ← s.schema.dataType? (← s.schema.directSupertype? t)
  if inherited = declared then none
  else some (.violationOn .immutableDataType
    (s.schema.labelOf t ++ " is " ++ declared.name ++ " but would inherit " ++ inherited.name) t)

/-- a regex of the type that the text does not match -/
def mismatch? (s : State) (t : TypeId) (text : String) : Option (TypeId × Pattern) :=
  (s.schema.patterns t).find? fun p => !p.2.isMatch text

/-- a value or a filled role that the instance's own type does not allow -/
def bodyFault (s : State) (id : ThingId) (thing : Thing) : Option ConceptError :=
  let label := s.schema.labelOf thing.type
  match thing.body with
  | .entity => none
  | .attribute value =>
    if s.schema.dataType? thing.type ≠ some value.dataType then
      some (.violationBy .immutableDataType (label ++ " holds a " ++ value.dataType.name ++ " value") thing.type id)
    else do
      let (_, p) ← s.mismatch? thing.type (← value.string?)
      some (.violationBy .regexViolation (toString value ++ " does not match " ++ toString p) thing.type id)
  | .relation players =>
    if s.schema.isImplicitRelation thing.type then none
    else players.toList.findSome? fun p =>
      if s.schema.relatesRole thing.type p.role then none
      else some (inUse (label ++ " relates " ++ s.schema.labelOf p.role ++ " in " ++ toString id) thing.type id)

/-- a role that the instance fills and its type does not play -/
def roleFault (s : State) (id : ThingId) (thing : Thing) : Option ConceptError :=
  (s.graph.relationsOf id).findSome? fun m =>
    if (s.edge? m.relation).isNone && !s.schema.playsRole thing.type m.role then
      some (inUse (toString id ++ " plays " ++ s.schema.labelOf m.role ++ " in " ++ toString m.relation) thing.type id)
    else none

/-- an attribute that the instance holds, or an instance that holds it, without a declaration -/
def holdingFault (s : State) (id : ThingId) (thing : Thing) : Option ConceptError :=
  (s.ownershipsOf id ++ s.ownersOf id).findSome? fun e =>
    match s.thing e.owner, s.thing e.held with
    | .error fault, _ => some fault
    | .ok _, .error fault => some fault
    | .ok owner, .ok held =>
      if (s.schema.ownership? owner.type held.type).isNone then
        some (inUse (toString e.owner ++ " holds " ++ toString e.held) thing.type id)
      else none

/-- the first thing wrong with an instance -/
def thingFault (s : State) (id : ThingId) (thing : Thing) : Option ConceptError :=
  s.bodyFault id thing <|> s.roleFault id thing <|> s.holdingFault id thing

/-- whether the types at or below `t`, and their instances, conform -/
def checkConformance (s : State) (t : TypeId) : Except ConceptError Unit := do
  checkEach (s.schema.subtypes t) s.dataTypeFault
  checkEach (s.instances t) fun i => s.thingFault i.1 i.2

/-- whether the element can be moved under `supertype` -/
def checkSetSupertype (s : State) (t supertype : TypeId) : Except ConceptError Unit := do
  let d ← s.editableAny t
  s.checkSupertypeKind d.label d.kind supertype
  if s.schema.directSupertype? t = some supertype then pure ()
  else if s.schema.isSubtypeOf supertype t then throw (.cycle d.label (s.schema.labelOf supertype))
  else
    let (_, moved) ← s.schema.reparent t supertype
    { s with schema := moved }.checkConformance t

end ConceptGraph.State
