/-
What a transaction has changed, step by step. A mutation carries everything that is needed to do the step again; types
that record ownerships are never mentioned, since they follow from the declarations that need them.

As data, a mutation is an object whose field `op` names it.
-/
import ConceptGraph.Id
import ConceptGraph.Label
import ConceptGraph.Value

namespace ConceptGraph

/-- one step of a transaction -/
inductive Mutation where
  | defineType (id : TypeId) (label : Label) (kind : Kind) (supertype : TypeId)
  | deleteType (id : TypeId)
  | setSupertype (id supertype : TypeId)
  | setLabel (id : TypeId) (label : Label)
  | setAbstract (id : TypeId) (isAbstract : Bool)
  | setDataType (id : TypeId) (dataType : DataType)
  | setRegex (id : TypeId) (pattern : String)
  | unsetRegex (id : TypeId)
  | plays (id role : TypeId)
  | unplay (id role : TypeId)
  | relates (id role : TypeId)
  | unrelate (id role : TypeId)
  | has (id owned : TypeId)
  | unhas (id owned : TypeId)
  | key (id owned : TypeId)
  | unkey (id owned : TypeId)
  | createThing (id : ThingId) (type : TypeId)
  | putAttribute (id : ThingId) (type : TypeId) (value : Value)
  | addRolePlayer (relation : ThingId) (role : TypeId) (player : ThingId)
  | removeRolePlayer (relation : ThingId) (role : TypeId) (player : ThingId)
  | setHas (owner held relation : ThingId)
  | unsetHas (owner held : ThingId)
  | deleteThing (id : ThingId)
  deriving DecidableEq, Repr

namespace Mutation

/-- whether the schema is changed, and not instances -/
def isSchema : Mutation → Bool
  | createThing .. | putAttribute .. | addRolePlayer .. | removeRolePlayer .. | setHas .. | unsetHas ..
  | deleteThing .. => false
  | _ => true

/-! ## Data -/

/-- every name, in the order in which they count -/
def names : List String :=
  ["define_type", "delete_type", "set_supertype", "set_label", "set_abstract", "set_data_type", "set_regex",
    "unset_regex", "plays", "unplay", "relates", "unrelate", "has", "unhas", "key", "unkey", "create_thing",
    "put_attribute", "add_role_player", "remove_role_player", "set_has", "unset_has", "delete_thing"]

def name : Mutation → String
  | defineType .. => "define_type"
  | deleteType .. => "delete_type"
  | setSupertype .. => "set_supertype"
  | setLabel .. => "set_label"
  | setAbstract .. => "set_abstract"
  | setDataType .. => "set_data_type"
  | setRegex .. => "set_regex"
  | unsetRegex .. => "unset_regex"
  | plays .. => "plays"
  | unplay .. => "unplay"
  | relates .. => "relates"
  | unrelate .. => "unrelate"
  | has .. => "has"
  | unhas .. => "unhas"
  | key .. => "key"
  | unkey .. => "unkey"
  | createThing .. => "create_thing"
  | putAttribute .. => "put_attribute"
  | addRolePlayer .. => "add_role_player"
  | removeRolePlayer .. => "remove_role_player"
  | setHas .. => "set_has"
  | unsetHas .. => "unset_has"
  | deleteThing .. => "delete_thing"

def idJson (raw : UInt64) : Json := .ofNat raw.toNat
def typeJson (t : TypeId) : Json := idJson t.raw
def thingJson (t : ThingId) : Json := idJson t.raw

/-- the fields besides the name, in order -/
def fields : Mutation → List (String × Json)
  | defineType id label kind supertype =>
    [("id", typeJson id), ("label", .ofString label), ("kind", .ofString kind.name), ("supertype", typeJson supertype)]
  | deleteType id => [("id", typeJson id)]
  | setSupertype id supertype => [("id", typeJson id), ("supertype", typeJson supertype)]
  | setLabel id label => [("id", typeJson id), ("label", .ofString label)]
  | setAbstract id isAbstract => [("id", typeJson id), ("is_abstract", .bool isAbstract)]
  | setDataType id dataType => [("id", typeJson id), ("data_type", .ofString dataType.name)]
  | setRegex id pattern => [("id", typeJson id), ("pattern", .ofString pattern)]
  | unsetRegex id => [("id", typeJson id)]
  | plays id role => [("id", typeJson id), ("role", typeJson role)]
  | unplay id role => [("id", typeJson id), ("role", typeJson role)]
  | relates id role => [("id", typeJson id), ("role", typeJson role)]
  | unrelate id role => [("id", typeJson id), ("role", typeJson role)]
  | has id owned => [("id", typeJson id), ("attribute", typeJson owned)]
  | unhas id owned => [("id", typeJson id), ("attribute", typeJson owned)]
  | key id owned => [("id", typeJson id), ("attribute", typeJson owned)]
  | unkey id owned => [("id", typeJson id), ("attribute", typeJson owned)]
  | createThing id type => [("id", thingJson id), ("type_id", typeJson type)]
  | putAttribute id type value => [("id", thingJson id), ("type_id", typeJson type), ("value", value.toJson)]
  | addRolePlayer relation role player =>
    [("relation", thingJson relation), ("role", typeJson role), ("player", thingJson player)]
  | removeRolePlayer relation role player =>
    [("relation", thingJson relation), ("role", typeJson role), ("player", thingJson player)]
  | setHas owner held relation =>
    [("owner", thingJson owner), ("attribute", thingJson held), ("relation", thingJson relation)]
  | unsetHas owner held => [("owner", thingJson owner), ("attribute", thingJson held)]
  | deleteThing id => [("id", thingJson id)]

def toJson (m : Mutation) : Json := .record (("op", .ofString m.name) :: m.fields)

def type? (j : Json) : Option TypeId := j.uint64?.map TypeId.mk
def thing? (j : Json) : Option ThingId := j.uint64?.map ThingId.mk
def kind? (j : Json) : Option Kind := (j.caseName? true).bind Kind.ofName?
def dataType? (j : Json) : Option DataType := (j.caseName? true).bind DataType.ofName?

/-- a mutation of one type -/
def one? (body : Json) (f : TypeId → Mutation) : Option Mutation := do
  match ← body.fields? ["id"] with
  | [id] => pure (f (← type? id))
  | _ => none

/-- a mutation of one type that names another one -/
def two? (other : String) (body : Json) (f : TypeId → TypeId → Mutation) : Option Mutation := do
  match ← body.fields? ["id", other] with
  | [id, t] => pure (f (← type? id) (← type? t))
  | _ => none

/-- a mutation of a player in a role -/
def player? (body : Json) (f : ThingId → TypeId → ThingId → Mutation) : Option Mutation := do
  match ← body.fields? ["relation", "role", "player"] with
  | [relation, role, player] => pure (f (← thing? relation) (← type? role) (← thing? player))
  | _ => none

/-- the mutation of that name, from its other fields -/
def ofFields? (name : String) (body : Json) : Option Mutation := do
  match name with
  | "define_type" =>
    match ← body.fields? ["id", "label", "kind", "supertype"] with
    | [id, label, kind, supertype] =>
      pure (.defineType (← type? id) (← label.string?) (← kind? kind) (← type? supertype))
    | _ => none
  | "delete_type" => one? body .deleteType
  | "set_supertype" => two? "supertype" body .setSupertype
  | "set_label" =>
    match ← body.fields? ["id", "label"] with
    | [id, label] => pure (.setLabel (← type? id) (← label.string?))
    | _ => none
  | "set_abstract" =>
    match ← body.fields? ["id", "is_abstract"] with
    | [id, flag] => pure (.setAbstract (← type? id) (← flag.bool?))
    | _ => none
  | "set_data_type" =>
    match ← body.fields? ["id", "data_type"] with
    | [id, d] => pure (.setDataType (← type? id) (← dataType? d))
    | _ => none
  | "set_regex" =>
    match ← body.fields? ["id", "pattern"] with
    | [id, pattern] => pure (.setRegex (← type? id) (← pattern.string?))
    | _ => none
  | "unset_regex" => one? body .unsetRegex
  | "plays" => two? "role" body .plays
  | "unplay" => two? "role" body .unplay
  | "relates" => two? "role" body .relates
  | "unrelate" => two? "role" body .unrelate
  | "has" => two? "attribute" body .has
  | "unhas" => two? "attribute" body .unhas
  | "key" => two? "attribute" body .key
  | "unkey" => two? "attribute" body .unkey
  | "create_thing" =>
    match ← body.fields? ["id", "type_id"] with
    | [id, t] => pure (.createThing (← thing? id) (← type? t))
    | _ => none
  | "put_attribute" =>
    match ← body.fields? ["id", "type_id", "value"] with
    | [id, t, value] => pure (.putAttribute (← thing? id) (← type? t) (← Value.ofJson? true value))
    | _ => none
  | "add_role_player" => player? body .addRolePlayer
  | "remove_role_player" => player? body .removeRolePlayer
  | "set_has" =>
    match ← body.fields? ["owner", "attribute", "relation"] with
    | [owner, held, relation] => pure (.setHas (← thing? owner) (← thing? held) (← thing? relation))
    | _ => none
  | "unset_has" =>
    match ← body.fields? ["owner", "attribute"] with
    | [owner, held] => pure (.unsetHas (← thing? owner) (← thing? held))
    | _ => none
  | "delete_thing" =>
    match ← body.fields? ["id"] with
    | [id] => pure (.deleteThing (← thing? id))
    | _ => none
  | _ => none

/-- a mutation as part of data, which is `kept` aside already or is so now -/
def ofJson? (kept : Bool) (j : Json) : Option Mutation := do
  if !j.isKeepable 0 then none
  else
    let (tag, body) ← j.tagged? "op"
    ofFields? (← tag.caseTag? kept names) body

end Mutation

end ConceptGraph
