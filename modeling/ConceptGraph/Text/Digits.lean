/-
Rows of digits and the numbers they stand for. A row may start with zeros; the empty row stands for zero.
-/
namespace ConceptGraph.Text

/-- the number that a row of decimal digits stands for -/
def natOfDigits (ds : List Char) : Nat := ds.foldl (fun n c => 10 * n + (c.toNat - '0'.toNat)) 0

/-- the number that a hexadecimal digit of either case stands for -/
def hexDigit? (c : Char) : Option Nat :=
  if c.isDigit then some (c.toNat - '0'.toNat)
  else if 'a' ≤ c ∧ c ≤ 'f' then some (c.toNat - 'a'.toNat + 10)
  else if 'A' ≤ c ∧ c ≤ 'F' then some (c.toNat - 'A'.toNat + 10)
  else none

/-- the number that a row of hexadecimal digits stands for, if that is what it is -/
def hexNumber? (ds : List Char) : Option Nat :=
  ds.foldlM (fun n c => (hexDigit? c).map fun d => 16 * n + d) 0

/-- the number in at least `width` decimal digits -/
def padded (width n : Nat) : List Char :=
  let ds := Nat.toDigits 10 n
  List.replicate (width - ds.length) '0' ++ ds

end ConceptGraph.Text
