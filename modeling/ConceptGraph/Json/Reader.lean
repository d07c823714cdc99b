/-
Reading data texts. Every function takes what follows in the text, and returns what it has read and the rest.

Strings are read in two passes: first characters and the halves that `\u` escapes name, then the halves are joined to
characters. A string with a half left over is still well written; it only has no content.
-/
import ConceptGraph.Json.Basic

namespace ConceptGraph.Json

open Text

/-- the only characters that may stand between tokens -/
def isSpace (c : Char) : Bool := c == ' ' || c == '\n' || c == '\t' || c == '\r'

def skipSpace (cs : List Char) : List Char := cs.dropWhile isSpace

/-! ## Numbers -/

/-- digits before the point: a leading zero stands alone -/
def readWhole? : List Char → Option (List Char × List Char)
  | '0' :: cs => some (['0'], cs)
  | cs =>
    let ds := cs.takeWhile Char.isDigit
    if ds = [] then none else some (ds, cs.dropWhile Char.isDigit)

/-- at least one digit -/
def readDigits? (cs : List Char) : Option (List Char × List Char) :=
  let ds := cs.takeWhile Char.isDigit
  if ds = [] then none else some (ds, cs.dropWhile Char.isDigit)

/-- a point and the digits after it, if there is a point -/
def readFraction? : List Char → Option (List Char × List Char)
  | '.' :: cs => readDigits? cs
  | cs => some ([], cs)

/-- the digits of an exponent, after an optional sign -/
def readSigned? : List Char → Option ((Bool × List Char) × List Char)
  | '-' :: cs => (readDigits? cs).map fun r => ((true, r.1), r.2)
  | '+' :: cs => (readDigits? cs).map fun r => ((false, r.1), r.2)
  | cs => (readDigits? cs).map fun r => ((false, r.1), r.2)

/-- an exponent, if there is one -/
def readExponent? : List Char → Option (Option (Bool × List Char) × List Char)
  | 'e' :: cs => (readSigned? cs).map fun r => (some r.1, r.2)
  | 'E' :: cs => (readSigned? cs).map fun r => (some r.1, r.2)
  | cs => some (none, cs)

def readSign : List Char → Bool × List Char
  | '-' :: cs => (true, cs)
  | cs => (false, cs)

def readNumeral? (cs : List Char) : Option (Numeral × List Char) := do
  let (negative, cs) := readSign cs
  let (whole, cs) ← readWhole? cs
  let (fraction, cs) ← readFraction? cs
  let (exponent, cs) ← readExponent? cs
  pure (⟨negative, whole, fraction, exponent⟩, cs)

/-! ## Strings -/

/-- what stands in a string: a character, or the 16-bit unit that a `\u` escape names -/
abbrev StringPart := Char ⊕ Nat

/-- the character that a one-letter escape names -/
def shortEscape? : Char → Option Char
  | '"' => some '"'
  | '\\' => some '\\'
  | '/' => some '/'
  | 'b' => some '\x08'
  | 'f' => some '\x0c'
  | 'n' => some '\n'
  | 'r' => some '\r'
  | 't' => some '\t'
  | _ => none

/-- the parts of a string up to its closing quote -/
def readParts? : List Char → Option (List StringPart × List Char)
  | [] => none
  | '"' :: cs => some ([], cs)
  | '\\' :: 'u' :: a :: b :: c :: d :: cs => do
    let unit ← hexNumber? [a, b, c, d]
    let (parts, rest) ← readParts? cs
    pure (.inr unit :: parts, rest)
  | '\\' :: e :: cs => do
    let c ← shortEscape? e
    let (parts, rest) ← readParts? cs
    pure (.inl c :: parts, rest)
  | c :: cs =>
    if c.toNat < 0x20 then none
    else do
      let (parts, rest) ← readParts? cs
      pure (.inl c :: parts, rest)

def isLeadingHalf (unit : Nat) : Bool := 0xD800 ≤ unit && unit < 0xDC00
def isTrailingHalf (unit : Nat) : Bool := 0xDC00 ≤ unit && unit < 0xE000

/-- the characters that the parts make up, if no half is left over -/
def joinParts? : List StringPart → Option (List Char)
  | [] => some []
  | .inl c :: parts => (joinParts? parts).map (c :: ·)
  | .inr unit :: parts =>
    if isLeadingHalf unit then
      match parts with
      | .inr next :: parts =>
        if isTrailingHalf next then
          (joinParts? parts).map (Char.ofNat (0x10000 + (unit - 0xD800) * 0x400 + (next - 0xDC00)) :: ·)
        else none
      | _ => none
    else if isTrailingHalf unit then none
    else (joinParts? parts).map (Char.ofNat unit :: ·)

/-- a string after its opening quote -/
def readString? (cs : List Char) : Option (Option String × List Char) :=
  (readParts? cs).map fun r => ((joinParts? r.1).map String.ofList, r.2)

/-! ## Values -/

mutual

/-- a value; `fuel` bounds the nesting and the number of items -/
def readValue? : Nat → List Char → Option (Json × List Char)
  | 0, _ => none
  | fuel + 1, cs =>
    match skipSpace cs with
    | 'n' :: 'u' :: 'l' :: 'l' :: cs => some (.null, cs)
    | 't' :: 'r' :: 'u' :: 'e' :: cs => some (.bool true, cs)
    | 'f' :: 'a' :: 'l' :: 's' :: 'e' :: cs => some (.bool false, cs)
    | '"' :: cs => (readString? cs).map fun r => (.string r.1, r.2)
    | '[' :: cs =>
      match skipSpace cs with
      | ']' :: cs => some (.array [], cs)
      | cs => (readItems? fuel cs).map fun r => (.array r.1, r.2)
    | '{' :: cs =>
      match skipSpace cs with
      | '}' :: cs => some (.object [], cs)
      | cs => (readFields? fuel cs).map fun r => (.object r.1, r.2)
    | cs => (readNumeral? cs).map fun r => (.number r.1, r.2)

/-- at least one item, up to the closing bracket -/
def readItems? : Nat → List Char → Option (List Json × List Char)
  | 0, _ => none
  | fuel + 1, cs => do
    let (j, cs) ← readValue? fuel cs
    match skipSpace cs with
    | ',' :: cs =>
      let (js, cs) ← readItems? fuel cs
      pure (j :: js, cs)
    | ']' :: cs => pure ([j], cs)
    | _ => none

/-- at least one field, up to the closing brace -/
def readFields? : Nat → List Char → Option (List (Option String × Json) × List Char)
  | 0, _ => none
  | fuel + 1, cs =>
    match skipSpace cs with
    | '"' :: cs => do
      let (key, cs) ← readString? cs
      match skipSpace cs with
      | ':' :: cs =>
        let (j, cs) ← readValue? fuel cs
        match skipSpace cs with
        | ',' :: cs =>
          let (fs, cs) ← readFields? fuel cs
          pure ((key, j) :: fs, cs)
        | '}' :: cs => pure ([(key, j)], cs)
        | _ => none
      | _ => none
    | _ => none

end

/-- the one value that a text holds -/
def parseChars? (cs : List Char) : Option Json :=
  match readValue? (2 * cs.length + 2) cs with
  | some (j, rest) => if (skipSpace rest).isEmpty then some j else none
  | none => none

def parse? (text : String) : Option Json := parseChars? text.toList

end ConceptGraph.Json
