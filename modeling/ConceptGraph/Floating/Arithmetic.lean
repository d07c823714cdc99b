/-
Multiplication and division of positive binary numbers: the exact result, rounded once.
-/
import ConceptGraph.Floating.Format

namespace ConceptGraph.FloatFormat

variable (f : FloatFormat)

/-- significand and scale of a finite pattern, without its sign -/
def magnitude (bits : Nat) : Nat × Int :=
  match f.reading bits with
  | .finite _ m q => (m, q)
  | _ => (0, 0)

/-- the pattern nearest to the product -/
def times (a b : Nat) : Nat :=
  let (m, q) := f.magnitude a
  let (n, r) := f.magnitude b
  f.nearestBinary false (m * n) (q + r)

/-- the pattern nearest to the quotient, for positive `b` -/
def quotient (a b : Nat) : Nat :=
  let (m, q) := f.magnitude a
  let (n, r) := f.magnitude b
  if q < r then f.nearest false m (n * Nat.pow 2 (r - q).natAbs) else f.nearest false (m * Nat.pow 2 (q - r).natAbs) n

/-- the pattern nearest to a power of ten -/
def powerOfTen (e : Nat) : Nat := f.nearestDecimal false 1 e

end ConceptGraph.FloatFormat
