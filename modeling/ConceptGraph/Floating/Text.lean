/-
Decimal texts of binary numbers.

- `plainText`: the shortest digits written out in full, never with an exponent and without a fraction where none is
  needed (`1`, `-0`, `0.1`, `NaN`, `inf`).
- `readText?`: the number nearest to a decimal text, or one of the words for infinity and NaN in any case.
-/
import ConceptGraph.Floating.Shortest
import ConceptGraph.Text.Digits

namespace ConceptGraph

namespace Decimal

def zeros (n : Nat) : String := String.ofList (List.replicate n '0')

def digitText (d : Decimal) : String := toString d.digits

/-- written out in full, with no fraction where the number is whole -/
def plain (d : Decimal) : String :=
  if 0 ≤ d.exponent then d.digitText ++ zeros d.exponent.natAbs
  else
    let cs := d.digitText.toList
    let places := d.exponent.natAbs
    if places < cs.length then
      String.ofList (cs.take (cs.length - places)) ++ "." ++ String.ofList (cs.drop (cs.length - places))
    else "0." ++ zeros (places - cs.length) ++ d.digitText

end Decimal

namespace FloatFormat

variable (f : FloatFormat)

/-- the number written out in full; of two equally near shortest decimals the upper one -/
def plainText (bits : Nat) : String :=
  match f.reading bits with
  | .nan => "NaN"
  | .infinite negative => if negative then "-inf" else "inf"
  | .finite negative m q =>
    (if negative then "-" else "") ++ (if m = 0 then "0" else (f.shortest .up m q).plain)

/-- a sign, if there is one, and the rest -/
def splitSign : List Char → Bool × List Char
  | '-' :: cs => (true, cs)
  | '+' :: cs => (false, cs)
  | cs => (false, cs)

/-- the exponent that `cs` holds after the digits: none is 0, one without digits is refused -/
def readExponent? : List Char → Option Int
  | [] => some 0
  | c :: cs =>
    if c = 'e' ∨ c = 'E' then
      let (negative, ds) := splitSign cs
      if ds ≠ [] ∧ ds.all Char.isDigit then
        some (if negative then -(Text.natOfDigits ds) else Text.natOfDigits ds)
      else none
    else none

/-- digits with at most one point among them and an exponent after them -/
def readDecimal? (cs : List Char) : Option Decimal :=
  let whole := cs.takeWhile Char.isDigit
  let rest := cs.dropWhile Char.isDigit
  let (fraction, rest) := match rest with
    | '.' :: tail => (tail.takeWhile Char.isDigit, tail.dropWhile Char.isDigit)
    | _ => ([], rest)
  if whole ++ fraction = [] then none
  else (readExponent? rest).map fun e => ⟨Text.natOfDigits (whole ++ fraction), e - fraction.length⟩

/-- the bit pattern that a text stands for, rounded once -/
def readText? (text : String) : Option Nat :=
  let (negative, cs) := splitSign text.toList
  let word := String.ofList (cs.map Char.toLower)
  if word = "nan" then some (f.withSign negative f.nanBits)
  else if word = "inf" ∨ word = "infinity" then some (f.withSign negative f.infinityBits)
  else (readDecimal? cs).map fun d => f.nearestDecimal negative d.digits d.exponent

end FloatFormat

end ConceptGraph
