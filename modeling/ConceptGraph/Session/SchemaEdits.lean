/-
Edits of the schema. Each asks the rules first, changes nothing and records nothing where things are already as wanted,
and otherwise records what it has done.

The first declaration that an attribute type is owned makes the types that record it: a relation type and two roles,
whose labels follow that of the attribute type, and which are deleted with it.
-/
import ConceptGraph.Rules.AttributeType
import ConceptGraph.Rules.Declaration
import ConceptGraph.Rules.Deletion
import ConceptGraph.Rules.Key
import ConceptGraph.Session.Transaction

namespace ConceptGraph.Transaction

open Std

/-! ## Types -/

/-- the element of that label, if there is one, which has to be of the kind -/
def existing (label : String) (kind : Kind) : Edit (Option TypeId) :=
  ask fun s =>
    match s.schema.idOf? label with
    | none => pure none
    | some t =>
      match s.schema.get? t with
      | none => pure none
      | some d => if d.kind = kind then pure (some t) else throw (.labelAlreadyInUse label)

/-- the element of that label and kind, made if there is none -/
def putType (label : String) (body : TypeBody) : Edit TypeId := do
  let kind := body.kind
  match ← existing label kind with
  | some t => pure t
  | none =>
    let supertype ← look fun s => s.schema.metaTypes.ofKind kind
    let limit := (← get).labelLimit
    ask fun s => s.checkNewType label kind supertype limit
    let t ← newType
    let d := TypeDef.blank label body
    editSchema fun schema => schema.insert t d supertype
    record (.defineType t label kind supertype)
    match d.dataType? with
    | some dataType => record (.setDataType t dataType)
    | none => pure ()
    pure t

def putEntityType (label : String) : Edit TypeId := putType label .entity
def putRelationType (label : String) : Edit TypeId := putType label (.relation ∅ none)
def putRole (label : String) : Edit TypeId := putType label .role

def setDataType (t : TypeId) (dataType : DataType) : Edit Unit := do
  ask fun s => s.checkSetDataType t dataType
  let d ← ask fun s => s.schema.require t
  if d.dataType? ≠ some dataType then
    editSchema fun schema => schema.change t (·.setDataType (some dataType))
    record (.setDataType t dataType)

/-- as `putType`; an attribute type that is there already gets the data type if it has another one -/
def putAttributeType (label : String) (dataType : Option DataType) : Edit TypeId := do
  match ← existing label .attribute with
  | some t =>
    match dataType with
    | some d =>
      let current ← look fun s => s.schema.dataType? t
      if current ≠ some d then setDataType t d
    | none => pure ()
    pure t
  | none => putType label (.attribute dataType none)

def setSupertype (t supertype : TypeId) : Edit Unit := do
  ask fun s => s.checkSetSupertype t supertype
  let current ← look fun s => s.schema.directSupertype? t
  if current ≠ some supertype then
    editSchema fun schema => do pure (← schema.reparent t supertype).2
    record (.setSupertype t supertype)

/-- the schema with the element and the types that record its ownership under other labels -/
def relabelAll (schema : Schema) (t : TypeId) (label : Label) : Except ConceptError Schema := do
  let schema ← schema.relabel t label
  match schema.implicitForOwned? t with
  | some r =>
    let schema ← schema.relabel r.relation (Label.ownershipRelation label)
    let schema ← schema.relabel r.ownerRole (Label.ownerRole label)
    schema.relabel r.valueRole (Label.valueRole label)
  | none => pure schema

def setLabel (t : TypeId) (label : String) : Edit Unit := do
  let limit := (← get).labelLimit
  ask fun s => s.checkSetLabel t label limit
  let d ← ask fun s => s.schema.require t
  if d.label ≠ label then
    editSchema fun schema => relabelAll schema t label
    record (.setLabel t label)

def setAbstract (t : TypeId) (isAbstract : Bool) : Edit Unit := do
  ask fun s => s.checkSetAbstract t isAbstract
  let d ← ask fun s => s.schema.require t
  if d.isAbstract ≠ isAbstract then
    editSchema fun schema => schema.change t fun d => { d with isAbstract := isAbstract }
    record (.setAbstract t isAbstract)

/-- the definition without any declaration about the element, or about the roles of its record -/
def withdraw (t : TypeId) (record : Option ImplicitOwnership) (d : TypeDef) : TypeDef :=
  let plays := d.plays.erase t
  let plays := match record with
    | some r => (plays.erase r.ownerRole).erase r.valueRole
    | none => plays
  { d with plays := plays, owns := d.owns.erase t }.changeRelates (·.erase t)

/-- the schema without the element, the types that record its ownership, and all that refers to them -/
def removeAll (schema : Schema) (t : TypeId) : Except ConceptError Schema := do
  let record := schema.implicitForOwned? t
  let schema := schema.unregisterImplicit t
  let schema := { schema with defs := schema.defs.map fun _ d => withdraw t record d }
  let schema ← match record with
    | some r => do
      let (_, schema) ← schema.remove r.relation
      let (_, schema) ← schema.remove r.ownerRole
      let (_, schema) ← schema.remove r.valueRole
      pure schema
    | none => pure schema
  pure (← schema.remove t).2

def deleteType (t : TypeId) : Edit Unit := do
  ask fun s => s.checkDeleteType t
  editSchema fun schema => removeAll schema t
  record (.deleteType t)

/-! ## Regexes -/

/-- records also a regex that was there before -/
def setRegex (t : TypeId) (source : String) : Edit Unit := do
  let pattern ← ask fun s => s.checkSetRegex t source
  editSchema fun schema => schema.change t (·.setRegex (some pattern))
  record (.setRegex t source)

def unsetRegex (t : TypeId) : Edit Unit := do
  ask fun s => s.checkUnsetRegex t
  let d ← ask fun s => s.schema.require t
  if d.regex?.isSome then
    editSchema fun schema => schema.change t (·.setRegex none)
    record (.unsetRegex t)

/-! ## Roles -/

def plays (t role : TypeId) : Edit Unit := do
  ask fun s => s.checkPlays t role
  let d ← ask fun s => s.schema.require t
  if !d.plays.contains role then
    editSchema fun schema => schema.change t fun d => { d with plays := d.plays.insert role }
    record (.plays t role)

def unplay (t role : TypeId) : Edit Unit := do
  ask fun s => s.checkUnplay t role
  let d ← ask fun s => s.schema.require t
  if d.plays.contains role then
    editSchema fun schema => schema.change t fun d => { d with plays := d.plays.erase role }
    record (.unplay t role)

def relates (t role : TypeId) : Edit Unit := do
  ask fun s => s.checkRelates t role
  let d ← ask fun s => s.schema.require t
  if !d.relatesRole role then
    editSchema fun schema => schema.change t (·.changeRelates (·.insert role))
    record (.relates t role)

def unrelate (t role : TypeId) : Edit Unit := do
  ask fun s => s.checkUnrelate t role
  let d ← ask fun s => s.schema.require t
  if d.relatesRole role then
    editSchema fun schema => schema.change t (·.changeRelates (·.erase role))
    record (.unrelate t role)

/-! ## Ownership -/

/-- the schema with the types that record the ownership of `r.owned`, whose label is given -/
def insertImplicit (schema : Schema) (r : ImplicitOwnership) (label : Label) : Except ConceptError Schema := do
  let m := schema.metaTypes
  let schema ← schema.insert r.ownerRole (.blank (Label.ownerRole label) .role) m.roleRoot
  let schema ← schema.insert r.valueRole (.blank (Label.valueRole label) .role) m.roleRoot
  let body := TypeBody.relation (.ofList [r.ownerRole, r.valueRole]) (some r.owned)
  let schema ← schema.insert r.relation (.blank (Label.ownershipRelation label) body) m.relationRoot
  let schema ← schema.change r.owned fun d => { d with plays := d.plays.insert r.valueRole }
  pure (schema.registerImplicit r)

/-- the record of the ownership of an attribute type, made with the first declaration -/
def ensureImplicit (owned : TypeId) : Edit ImplicitOwnership := do
  match ← look fun s => s.schema.implicitForOwned? owned with
  | some r => pure r
  | none =>
    let d ← ask fun s => s.schema.require owned
    let relation ← newType
    let ownerRole ← newType
    let valueRole ← newType
    let r : ImplicitOwnership := ⟨owned, relation, ownerRole, valueRole⟩
    editSchema fun schema => insertImplicit schema r d.label
    pure r

/-- instances of `t` own attributes of `owned` as said, and play the owner's role -/
def declareOwnership (t owned : TypeId) (ownership : Ownership) : Edit Unit := do
  let r ← ensureImplicit owned
  editSchema fun schema => schema.change t fun d =>
    { d with plays := d.plays.insert r.ownerRole, owns := d.owns.insert owned ownership }

def has (t owned : TypeId) : Edit Unit := do
  ask fun s => s.checkHas t owned
  let d ← ask fun s => s.schema.require t
  if !d.owns.contains owned then
    declareOwnership t owned .has
    record (.has t owned)

/-- withdraws a key as well -/
def unhas (t owned : TypeId) : Edit Unit := do
  ask fun s => s.checkUnhas t owned
  let implicit ← look fun s => s.schema.implicitForOwned? owned
  let d ← ask fun s => s.schema.require t
  if d.owns.contains owned then
    editSchema fun schema => schema.change t fun d =>
      { d with
        owns := d.owns.erase owned
        plays := match implicit with
          | some r => d.plays.erase r.ownerRole
          | none => d.plays }
    record (.unhas t owned)

def key (t owned : TypeId) : Edit Unit := do
  ask fun s => s.checkKey t owned
  let d ← ask fun s => s.schema.require t
  if d.owns[owned]? ≠ some .key then
    declareOwnership t owned .key
    record (.key t owned)

/-- the ownership stays -/
def unkey (t owned : TypeId) : Edit Unit := do
  ask fun s => s.checkHas t owned
  let d ← ask fun s => s.schema.require t
  if d.owns[owned]? = some .key then
    editSchema fun schema => schema.change t fun d => { d with owns := d.owns.insert owned .has }
    record (.unkey t owned)

end ConceptGraph.Transaction
