/-
Attribute values, tagged with the domain they belong to, and the identity under which they are stored.

Values compare as the domain does: floating-point numbers on the number line, where a NaN equals nothing. `ValueKey` is
the identity instead: `key` folds all NaNs of a domain into one and both zeros into one, so it is a proper equality, and
keys are ordered by domain first.
-/
import ConceptGraph.DataType
import ConceptGraph.Floating.Number
import ConceptGraph.Time.LocalTime
import ConceptGraph.Json.Decode
import Std.Data.ExtTreeMap

namespace ConceptGraph

open Std

/-- a value that an attribute can hold -/
inductive Value where
  | boolean (b : Bool)
  | date (d : LocalTime)
  | double (d : Double)
  | float (f : Single)
  | integer (i : Int32)
  | long (l : Int64)
  | string (s : String)
  deriving DecidableEq, Repr

/-- what tells stored values apart; floating-point numbers stand as bit patterns -/
inductive ValueKey where
  | boolean (b : Bool)
  | date (d : LocalTime)
  | double (bits : UInt64)
  | float (bits : UInt32)
  | integer (i : Int32)
  | long (l : Int64)
  | string (s : String)
  deriving DecidableEq, Repr

namespace Value

/-- the domain a value belongs to -/
def dataType : Value → DataType
  | .boolean _ => .boolean
  | .date _ => .date
  | .double _ => .double
  | .float _ => .float
  | .integer _ => .integer
  | .long _ => .long
  | .string _ => .string

/-- the identity under which a value is stored -/
def key : Value → ValueKey
  | .boolean b => .boolean b
  | .date d => .date d
  | .double d => .double d.identityBits
  | .float f => .float f.identityBits
  | .integer i => .integer i
  | .long l => .long l
  | .string s => .string s

/-- equality of values, each in its own domain -/
def same : Value → Value → Bool
  | .boolean a, .boolean b => a == b
  | .date a, .date b => a == b
  | .double a, .double b => a.sameNumber b
  | .float a, .float b => a.sameNumber b
  | .integer a, .integer b => a == b
  | .long a, .long b => a == b
  | .string a, .string b => a == b
  | _, _ => false

/-! ## Parts -/

def bool? : Value → Option Bool
  | .boolean b => some b
  | _ => none

def long? : Value → Option Int64
  | .long l => some l
  | _ => none

def double? : Value → Option Double
  | .double d => some d
  | _ => none

def string? : Value → Option String
  | .string s => some s
  | _ => none

def date? : Value → Option LocalTime
  | .date d => some d
  | _ => none

/-! ## Text -/

/-- how a value is shown in messages; strings stand between quotes as they are -/
def text : Value → String
  | .boolean b => toString b
  | .date d => toString d
  | .double d => toString d
  | .float f => toString f
  | .integer i => toString i.toInt
  | .long l => toString l.toInt
  | .string s => "\"" ++ s ++ "\""

instance : ToString Value := ⟨text⟩

/-! ## Data -/

/-- the value itself, without its domain -/
def contentJson : Value → Json
  | .boolean b => .bool b
  | .date d => .ofString d.text
  | .double d => d.toJson
  | .float f => f.toJson
  | .integer i => .ofInt i.toInt
  | .long l => .ofInt l.toInt
  | .string s => .ofString s

def toJson (v : Value) : Json := .record [("type", .ofString v.dataType.name), ("value", v.contentJson)]

/-- the value of a domain that stands in data -/
def ofContent? (d : DataType) (j : Json) : Option Value :=
  match d with
  | .boolean => j.bool?.map .boolean
  | .date => (j.string?.bind LocalTime.ofText?).map .date
  | .double => j.double?.map .double
  | .float => j.single?.map .float
  | .integer => j.int32?.map .integer
  | .long => j.int64?.map .long
  | .string => j.string?.map .string

/-- a value and its domain; `kept` tells whether the data has been kept aside -/
def ofJson? (kept : Bool) (j : Json) : Option Value := do
  match ← j.fields? ["type", "value"] with
  | [domain, content] =>
    let d ← (← domain.caseName? kept) |> DataType.ofName?
    ofContent? d content
  | _ => none

end Value

/-! ## Order of keys -/

namespace ValueKey

/-- place of the domain, then the value as a row of numbers -/
def sortKey : ValueKey → List Int
  | .boolean b => [0, b.toNat]
  | .date d => 1 :: d.parts
  | .double bits => [2, bits.toNat]
  | .float bits => [3, bits.toNat]
  | .integer i => [4, i.toInt]
  | .long l => [5, l.toInt]
  | .string s => 6 :: s.toList.map fun c => (c.toNat : Int)

theorem eq_of_sortKey_eq {a b : ValueKey} (h : a.sortKey = b.sortKey) : a = b := by
  cases a <;> cases b <;> simp [sortKey, LocalTime.parts] at h
  case boolean.boolean a b => cases a <;> cases b <;> simp_all
  case date.date a b => exact congrArg date (LocalTime.eq_of_parts_eq (by simp [LocalTime.parts, h]))
  case double.double => exact congrArg double (UInt64.toNat_inj.1 (by omega))
  case float.float => exact congrArg float (UInt32.toNat_inj.1 (by omega))
  case integer.integer => exact congrArg integer (Int32.toInt_inj.1 h)
  case long.long => exact congrArg long (Int64.toInt_inj.1 h)
  case string.string a b =>
    refine congrArg string (String.toList_inj.1 ?_)
    exact (List.map_inj_right fun _ _ hcd => Char.toNat_inj.1 (Int.ofNat_inj.1 hcd)).1 h

instance : Ord ValueKey := ⟨compareOn sortKey⟩
instance : TransOrd ValueKey := inferInstanceAs (TransCmp (compareOn sortKey))
instance : LawfulEqOrd ValueKey where
  eq_of_compare h := eq_of_sortKey_eq (LawfulEqOrd.eq_of_compare (α := List Int) h)

end ValueKey

end ConceptGraph
