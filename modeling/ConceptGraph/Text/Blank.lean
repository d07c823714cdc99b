/-
White space: the characters that separate words in any script. Core's own test knows the ASCII ones only.
-/
namespace ConceptGraph.Text

/-- the characters with the property White_Space, as code points -/
def blankRanges : List (Nat × Nat) :=
  [(0x09, 0x0D), (0x20, 0x20), (0x85, 0x85), (0xA0, 0xA0), (0x1680, 0x1680), (0x2000, 0x200A), (0x2028, 0x2029),
    (0x202F, 0x202F), (0x205F, 0x205F), (0x3000, 0x3000)]

/-- whether a code point lies in one of the ranges -/
def inRanges (ranges : List (Nat × Nat)) (c : Char) : Bool :=
  ranges.any fun r => r.1 ≤ c.toNat && c.toNat ≤ r.2

def isBlank (c : Char) : Bool := inRanges blankRanges c

/-- the text without leading white space -/
def dropBlanks (cs : List Char) : List Char := cs.dropWhile isBlank

end ConceptGraph.Text
