/-
Data texts in JSON: the values such a text holds, kept as they are written. Numbers stay rows of digits, objects keep
the order of their fields and every repetition, and a string whose escapes do not pair up is kept as a string without
content, since it may stand where nobody reads it.

- `Numeral.text`, `Json.text`: how a value is written, without spaces.
- `Json.depth`: how deep arrays and objects are nested.
-/
import ConceptGraph.Text.Digits

namespace ConceptGraph

/-- a number as it is written: sign, digits before and after the point, and exponent digits with their sign -/
structure Numeral where
  negative : Bool
  whole : List Char
  fraction : List Char
  exponent : Option (Bool × List Char)
  deriving DecidableEq, Repr

/-- a value in a data text; a string without content is one that has half a character in it -/
inductive Json where
  | null
  | bool (b : Bool)
  | number (n : Numeral)
  | string (s : Option String)
  | array (items : List Json)
  | object (fields : List (Option String × Json))
  deriving Repr

namespace Numeral

def ofNat (n : Nat) : Numeral := ⟨false, Nat.toDigits 10 n, [], none⟩

def ofInt (i : Int) : Numeral := ⟨i < 0, Nat.toDigits 10 i.natAbs, [], none⟩

/-- whether the number is written without fraction and exponent -/
def isWhole (n : Numeral) : Bool := n.fraction.isEmpty && n.exponent.isNone

def fractionText : List Char → List Char
  | [] => []
  | ds => '.' :: ds

def exponentText : Option (Bool × List Char) → List Char
  | none => []
  | some (negative, ds) => 'e' :: (if negative then '-' else '+') :: ds

def text (n : Numeral) : List Char :=
  (if n.negative then ['-'] else []) ++ n.whole ++ fractionText n.fraction ++ exponentText n.exponent

end Numeral

namespace Json

/-! ## Building -/

def ofString (s : String) : Json := .string (some s)
def ofNat (n : Nat) : Json := .number (.ofNat n)
def ofInt (i : Int) : Json := .number (.ofInt i)

/-- an object with these fields -/
def record (fields : List (String × Json)) : Json := .object (fields.map fun f => (some f.1, f.2))

/-- the value, or null -/
def ofOption {α : Type} (f : α → Json) : Option α → Json
  | none => .null
  | some a => f a

def ofList {α : Type} (f : α → Json) (xs : List α) : Json := .array (xs.map f)

/-! ## Writing -/

/-- how one character stands inside a string -/
def escaped (c : Char) : List Char :=
  if c = '"' then ['\\', '"']
  else if c = '\\' then ['\\', '\\']
  else if c = '\n' then ['\\', 'n']
  else if c = '\r' then ['\\', 'r']
  else if c = '\t' then ['\\', 't']
  else if c = '\x08' then ['\\', 'b']
  else if c = '\x0c' then ['\\', 'f']
  else if c.toNat < 0x20 then ['\\', 'u', '0', '0', Nat.digitChar (c.toNat / 16), Nat.digitChar (c.toNat % 16)]
  else [c]

/-- a string between its quotes -/
def stringText (s : Option String) : List Char := '"' :: (s.getD "").toList.flatMap escaped ++ ['"']

mutual

/-- how a value is written, without spaces -/
def chars : Json → List Char
  | .null => ['n', 'u', 'l', 'l']
  | .bool true => ['t', 'r', 'u', 'e']
  | .bool false => ['f', 'a', 'l', 's', 'e']
  | .number n => n.text
  | .string s => stringText s
  | .array items => '[' :: itemsChars items
  | .object fields => '{' :: fieldsChars fields

/-- the items of an array and its closing bracket -/
def itemsChars : List Json → List Char
  | [] => [']']
  | [j] => chars j ++ [']']
  | j :: js => chars j ++ ',' :: itemsChars js

/-- the fields of an object and its closing brace -/
def fieldsChars : List (Option String × Json) → List Char
  | [] => ['}']
  | [(k, j)] => stringText k ++ ':' :: chars j ++ ['}']
  | (k, j) :: fs => stringText k ++ ':' :: chars j ++ ',' :: fieldsChars fs

end

def text (j : Json) : String := String.ofList j.chars

/-! ## Shape -/

mutual

/-- how deep arrays and objects are nested -/
def depth : Json → Nat
  | .array items => itemsDepth items + 1
  | .object fields => fieldsDepth fields + 1
  | _ => 0

def itemsDepth : List Json → Nat
  | [] => 0
  | j :: js => max (depth j) (itemsDepth js)

def fieldsDepth : List (Option String × Json) → Nat
  | [] => 0
  | (_, j) :: fs => max (depth j) (fieldsDepth fs)

end

end Json

end ConceptGraph
