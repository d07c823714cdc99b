/-
Binary floating-point formats, as plain arithmetic on natural numbers.

A number is the bit pattern of its format. `reading` says which real number a pattern stands for, as (-1)^s * m * 2^q;
`nearest` gives the pattern of the number closest to a quotient, a tie going to the even pattern, and infinity once the
quotient is past the largest number by half a unit. Nothing here uses the machine's floating point.
-/
namespace ConceptGraph

/-- a binary interchange format, by the widths of its two fields -/
structure FloatFormat where
  fractionBits : Nat
  exponentBits : Nat

/-- what a bit pattern stands for -/
inductive Reading where
  | nan
  | infinite (negative : Bool)
  | finite (negative : Bool) (m : Nat) (q : Int)
  deriving DecidableEq, Repr

namespace FloatFormat

/-- the 64-bit format -/
def double : FloatFormat := ⟨52, 11⟩

/-- the 32-bit format -/
def single : FloatFormat := ⟨23, 8⟩

variable (f : FloatFormat)

/-- the implicit leading bit of a normal significand -/
def leadingBit : Nat := Nat.pow 2 f.fractionBits

/-- the exponent field of infinities and NaNs -/
def topField : Nat := Nat.pow 2 f.exponentBits - 1

/-- the power of two that the last bit of a subnormal number counts -/
def lowestScale : Int := 2 - Nat.pow 2 (f.exponentBits - 1) - f.fractionBits

/-- the bit that holds the sign -/
def signBit : Nat := Nat.pow 2 (f.fractionBits + f.exponentBits)

def infinityBits : Nat := f.topField * f.leadingBit

/-- the one NaN that stands for all -/
def nanBits : Nat := f.infinityBits + f.leadingBit / 2

def withSign (negative : Bool) (bits : Nat) : Nat := if negative then f.signBit + bits else bits

/-- which real number a bit pattern stands for -/
def reading (bits : Nat) : Reading :=
  let negative := f.signBit ≤ bits
  let magnitude := bits % f.signBit
  let field := magnitude / f.leadingBit
  let fraction := magnitude % f.leadingBit
  if field = f.topField then
    if fraction = 0 then .infinite negative else .nan
  else if field = 0 then .finite negative fraction f.lowestScale
  else .finite negative (f.leadingBit + fraction) (f.lowestScale + (field - 1 : Nat))

/-- the quotient rounded to a whole number, a half going to the even neighbour -/
def roundHalfEven (num den : Nat) : Nat :=
  let q := num / den
  let r := num % den
  if 2 * r < den then q
  else if den < 2 * r then q + 1
  else if q % 2 = 0 then q else q + 1

/-- floor of the binary logarithm of a positive quotient -/
def log2Quotient (num den : Nat) : Int :=
  let guess : Int := (num.log2 : Int) - den.log2
  let reached := if guess < 0 then den ≤ num * Nat.pow 2 guess.natAbs else den * Nat.pow 2 guess.natAbs ≤ num
  if reached then guess else guess - 1

/-- the pattern nearest to `num / den`, ties to the even one -/
def nearest (negative : Bool) (num den : Nat) : Nat :=
  if num = 0 then f.withSign negative 0
  else
    let scale := max f.lowestScale (log2Quotient num den - f.fractionBits)
    let m := if scale < 0 then roundHalfEven (num * Nat.pow 2 scale.natAbs) den
      else roundHalfEven num (den * Nat.pow 2 scale.natAbs)
    f.withSign negative (min f.infinityBits ((scale - f.lowestScale).toNat * f.leadingBit + m))

/-- the pattern nearest to `m * 2 ^ q` -/
def nearestBinary (negative : Bool) (m : Nat) (q : Int) : Nat :=
  if q < 0 then f.nearest negative m (Nat.pow 2 q.natAbs) else f.nearest negative (m * Nat.pow 2 q.natAbs) 1

/-- past these bounds a decimal is above every number, or nearer to zero than to any other number -/
def decimalBound : Int := Nat.pow 2 f.exponentBits

/-- the pattern nearest to `digits * 10 ^ exponent` -/
def nearestDecimal (negative : Bool) (digits : Nat) (exponent : Int) : Nat :=
  let top := exponent + (Nat.toDigits 10 digits).length
  if digits = 0 ∨ top < -f.decimalBound then f.withSign negative 0
  else if f.decimalBound < top then f.withSign negative f.infinityBits
  else if exponent < 0 then f.nearest negative digits (Nat.pow 10 exponent.natAbs)
  else f.nearest negative (digits * Nat.pow 10 exponent.natAbs) 1

end FloatFormat

end ConceptGraph
