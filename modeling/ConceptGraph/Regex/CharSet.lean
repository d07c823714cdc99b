/-
Sets of characters as rows of code point ranges, and the sets that have names. Names mean ASCII characters only.

- `canonical`: the same set with its ranges sorted and disjoint, no two of them touching.
- `foldCase`: each range widened by the letters of the other case that belong to it; a range that reaches into the
  lower-case letters gives their capitals, and only otherwise one that reaches into the capitals gives small letters.
- `complement`: every other character.
-/
import ConceptGraph.Text.Blank

namespace ConceptGraph.Regex

/-- ranges of code points, both ends included -/
abbrev CharSet := List (Nat × Nat)

namespace CharSet

def contains (s : CharSet) (c : Char) : Bool := Text.inRanges s c

def single (c : Char) : CharSet := [(c.toNat, c.toNat)]

/-- largest code point -/
def top : Nat := 0x10FFFF

/-- the ranges of a sorted row with every two that overlap or touch made one -/
def join : CharSet → CharSet
  | [] => []
  | r :: rs =>
    match join rs with
    | [] => [r]
    | s :: ss => if s.1 ≤ r.2 + 1 then (r.1, max r.2 s.2) :: ss else r :: s :: ss

/-- the same set, its ranges sorted and apart -/
def canonical (s : CharSet) : CharSet := join (s.mergeSort fun a b => a.1 < b.1 || (a.1 == b.1 && a.2 ≤ b.2))

/-- what lies between the ranges of a canonical set, from `start` on -/
def gaps : Nat → CharSet → CharSet
  | start, [] => if start ≤ top then [(start, top)] else []
  | start, r :: rs => if start < r.1 then (start, r.1 - 1) :: gaps (r.2 + 1) rs else gaps (r.2 + 1) rs

/-- every other character, for a canonical set -/
def complement (s : CharSet) : CharSet := gaps 0 s

/-- the letters of the other case that a range brings with it -/
def otherCase? (r : Nat × Nat) : Option (Nat × Nat) :=
  if r.1 ≤ 'z'.toNat ∧ 'a'.toNat ≤ r.2 then some (max r.1 'a'.toNat - 32, min r.2 'z'.toNat - 32)
  else if r.1 ≤ 'Z'.toNat ∧ 'A'.toNat ≤ r.2 then some (max r.1 'A'.toNat + 32, min r.2 'Z'.toNat + 32)
  else none

/-- a canonical set together with the letters of the other case -/
def foldCase (s : CharSet) : CharSet := canonical (s ++ s.filterMap otherCase?)

/-! ## Named sets -/

def span (low high : Char) : Nat × Nat := (low.toNat, high.toNat)

def digits : CharSet := [span '0' '9']
def spaces : CharSet := [span '\t' '\r', span ' ' ' ']
def wordChars : CharSet := [span '0' '9', span 'A' 'Z', span '_' '_', span 'a' 'z']

/-- the set of that name -/
def named? : String → Option CharSet
  | "alnum" => some [span '0' '9', span 'A' 'Z', span 'a' 'z']
  | "alpha" => some [span 'A' 'Z', span 'a' 'z']
  | "ascii" => some [(0, 0x7F)]
  | "blank" => some [span '\t' '\t', span ' ' ' ']
  | "cntrl" => some [(0, 0x1F), (0x7F, 0x7F)]
  | "digit" => some digits
  | "graph" => some [span '!' '~']
  | "lower" => some [span 'a' 'z']
  | "print" => some [span ' ' '~']
  | "punct" => some [span '!' '/', span ':' '@', span '[' (Char.ofNat 0x60), (0x7B, 0x7E)]
  | "space" => some spaces
  | "upper" => some [span 'A' 'Z']
  | "word" => some wordChars
  | "xdigit" => some [span '0' '9', span 'A' 'F', span 'a' 'f']
  | _ => none

end CharSet

/-- ASCII letters, digits and the underscore -/
def isWordChar (c : Char) : Bool := CharSet.wordChars.contains c

end ConceptGraph.Regex
