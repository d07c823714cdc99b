/-
The fewest decimal digits that read back as a given binary number.

A binary number m * 2^q is read back from every decimal inside the interval that reaches half a unit to either side
(a quarter below the smallest significand of its binade), ends included when m is even. `shortest` looks for a decimal
of one digit in it, then of two, and so on; on each grid it tries the two neighbours of the number itself, which are in
the interval if any grid point is. Of two hits it takes the nearer, and lets the caller say which of two equally near.
-/
import ConceptGraph.Floating.Format

namespace ConceptGraph

/-- `digits * 10 ^ exponent` -/
structure Decimal where
  digits : Nat
  exponent : Int
  deriving DecidableEq, Repr

namespace Decimal

/-- the same number without trailing zeros in `digits`, for up to `fuel` of them -/
def trim : Nat → Decimal → Decimal
  | 0, d => d
  | fuel + 1, d => if d.digits % 10 = 0 ∧ d.digits ≠ 0 then trim fuel ⟨d.digits / 10, d.exponent + 1⟩ else d

/-- number of digits -/
def width (d : Decimal) : Nat := (Nat.toDigits 10 d.digits).length

/-- the power of ten that the first digit counts -/
def leadExponent (d : Decimal) : Int := d.exponent + d.width - 1

end Decimal

/-- which of two equally near neighbours is taken -/
inductive Tie where
  | up
  | even
  deriving DecidableEq, Repr

namespace FloatFormat

/-- the smallest `t ≤ fuel + start` with `den ≤ num * 10 ^ t`, searched upwards from `start` -/
def tensToReach (num den : Nat) : Nat → Nat → Nat
  | 0, start => start
  | fuel + 1, start => if den ≤ num * Nat.pow 10 start then start else tensToReach num den fuel (start + 1)

/-- floor of the decimal logarithm of a positive quotient -/
def log10Quotient (num den : Nat) : Int :=
  if den ≤ num then ((Nat.toDigits 10 (num / den)).length : Int) - 1
  else -(tensToReach num den (den.log2 + 1) 1)

/-- the interval of a number in units of `num / den`: every decimal between `low` and `high` reads back as it -/
structure Reach where
  low : Nat
  mid : Nat
  high : Nat
  closed : Bool
  num : Nat
  den : Nat

/-- the interval of `m * 2 ^ q` -/
def reach (f : FloatFormat) (m : Nat) (q : Int) : Reach :=
  let narrow := m = f.leadingBit ∧ q ≠ f.lowestScale
  { low := 4 * m - (if narrow then 1 else 2)
    mid := 4 * m
    high := 4 * m + 2
    closed := m % 2 = 0
    num := if q - 2 < 0 then 1 else Nat.pow 2 (q - 2).natAbs
    den := if q - 2 < 0 then Nat.pow 2 (q - 2).natAbs else 1 }

/-- whether `c * 10 ^ k` lies in the interval, `num / den` being already scaled by `10 ^ -k` -/
def Reach.holds (r : Reach) (num den c : Nat) : Bool :=
  if r.closed then r.low * num ≤ c * den && c * den ≤ r.high * num && 0 < c
  else r.low * num < c * den && c * den < r.high * num && 0 < c

/-- the neighbour of the number on the grid of `10 ^ k` that reads back as it, if there is one -/
def Reach.onGrid (r : Reach) (tie : Tie) (k : Int) : Option Nat :=
  let num := if k < 0 then r.num * Nat.pow 10 k.natAbs else r.num
  let den := if k < 0 then r.den else r.den * Nat.pow 10 k.natAbs
  let below := r.mid * num / den
  let rest := 2 * (r.mid * num % den)
  match r.holds num den below, r.holds num den (below + 1) with
  | false, false => none
  | true, false => some below
  | false, true => some (below + 1)
  | true, true =>
    if rest < den then some below
    else if den < rest then some (below + 1)
    else match tie with
      | .up => some (below + 1)
      | .even => some (if below % 2 = 0 then below else below + 1)

/-- tries grids of ever more digits, the first one counting `10 ^ k` -/
def Reach.search (r : Reach) (tie : Tie) : Nat → Int → Decimal
  | 0, k => ⟨r.mid * r.num / r.den, k⟩
  | fuel + 1, k =>
    match r.onGrid tie k with
    | some c => Decimal.trim 20 ⟨c, k⟩
    | none => search r tie fuel (k - 1)

/-- the fewest digits that read back as `m * 2 ^ q`, for positive `m` -/
def shortest (f : FloatFormat) (tie : Tie) (m : Nat) (q : Int) : Decimal :=
  let r := f.reach m q
  r.search tie 20 (log10Quotient (r.mid * r.num) r.den)

end FloatFormat

end ConceptGraph
