/-
Taking data apart. A structure stands as an object with its fields under their names, each exactly once and in any
order, or as an array of its fields in their order; fields of other names are ignored. One of several structures is
marked by a tag among its fields, or by a name and a value side by side.

What is kept aside before its meaning is known has to be sound throughout: strings have content, numbers are in range,
and the nesting is bounded.
-/
import ConceptGraph.Json.Number

namespace ConceptGraph.Json

/-! ## Scalars -/

def bool? : Json → Option Bool
  | .bool b => some b
  | _ => none

def string? : Json → Option String
  | .string s => s
  | _ => none

def int? : Json → Option Int
  | .number n => n.toInt?
  | _ => none

def uint64? (j : Json) : Option UInt64 :=
  j.int?.bind fun i => if 0 ≤ i ∧ i < UInt64.size then some (.ofNat i.toNat) else none

def int32? (j : Json) : Option Int32 :=
  j.int?.bind fun i => if Int32.minValue.toInt ≤ i ∧ i ≤ Int32.maxValue.toInt then some (.ofInt i) else none

def int64? (j : Json) : Option Int64 :=
  j.int?.bind fun i => if Int64.minValue.toInt ≤ i ∧ i ≤ Int64.maxValue.toInt then some (.ofInt i) else none

def double? : Json → Option Double
  | .number n => n.toDouble?
  | _ => none

def single? : Json → Option Single
  | .number n => n.toSingle?
  | _ => none

/-! ## Structures -/

/-- the fields of an object, if all their names have content -/
def properFields? (fields : List (Option String × Json)) : Option (List (String × Json)) :=
  fields.mapM fun f => f.1.map fun k => (k, f.2)

/-- the value of a field that stands exactly once -/
def field? (fields : List (String × Json)) (name : String) : Option Json :=
  match fields.filter (·.1 == name) with
  | [(_, j)] => some j
  | _ => none

/-- the values of the named fields, in the order of the names -/
def fields? (names : List String) : Json → Option (List Json)
  | .array items => if items.length = names.length then some items else none
  | .object fields => do names.mapM (field? (← properFields? fields))
  | _ => none

/-- the value of the field called `tag`, which in an array comes first, and the structure without it -/
def tagged? (tag : String) : Json → Option (Json × Json)
  | .array (t :: items) => some (t, .array items)
  | .object fields => do
    let t ← field? (← properFields? fields) tag
    pure (t, .object (fields.filter (·.1 != some tag)))
  | _ => none

/-! ## Names of cases -/

/-- a bare name; `kept` data may write a name as an object with nothing under it -/
def caseName? (kept : Bool) : Json → Option String
  | .string s => s
  | .object [(k, .null)] => k
  | .object [(k, .object [])] => if kept then k else none
  | _ => none

/-- which of the named cases a tag marks; `kept` data may count the cases from 0 -/
def caseTag? (kept : Bool) (names : List String) : Json → Option String
  | .string s => s
  | .number n => if kept then n.toInt?.bind fun i => if 0 ≤ i then names[i.toNat]? else none else none
  | _ => none

/-! ## Soundness -/

mutual

/-- whether all strings have content and all numbers are in range -/
def isSound : Json → Bool
  | .number n => n.toDouble?.isSome
  | .string s => s.isSome
  | .array items => areSound items
  | .object fields => areSoundFields fields
  | _ => true

def areSound : List Json → Bool
  | [] => true
  | j :: js => isSound j && areSound js

def areSoundFields : List (Option String × Json) → Bool
  | [] => true
  | (k, j) :: fs => k.isSome && isSound j && areSoundFields fs

end

/-- how deep data that is kept aside may be nested -/
def maxDepth : Nat := 127

/-- whether the value can be kept aside below `outer` levels of nesting -/
def isKeepable (outer : Nat) (j : Json) : Bool := j.isSound && j.depth + outer ≤ maxDepth

end ConceptGraph.Json
