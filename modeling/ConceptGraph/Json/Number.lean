/-
Numbers of the fixed-width domains in data texts.

- `Numeral.ofDecimal`: shortest digits as they stand in data: a fraction always (`1.0`), and an exponent where the number
  is too large or too small for its `Layout` (`1e+16`, `1.5e-7`). Infinities and NaNs have no numeral.
- `Numeral.toDouble?`: digits are taken into a significand of 64 bits as long as they fit, which is then scaled by a
  power of ten. Significand, power and scaling are rounded one after the other, so the last bit may differ from the
  number nearest to the text when there are more than fifteen digits.
- `Numeral.toInt?`: only a numeral without fraction and exponent is a whole number, and `-0` is none.
-/
import ConceptGraph.Json.Basic
import ConceptGraph.Floating.Number
import ConceptGraph.Floating.Arithmetic

namespace ConceptGraph

open Text

namespace Numeral

/-! ## Writing -/

/-- the powers of ten that are written out: those from `least` up to, but not including, `limit` -/
structure Layout where
  least : Int
  limit : Int

namespace Layout

/-- 64-bit numbers -/
def double : Layout := ⟨-5, 16⟩

/-- 32-bit numbers -/
def single : Layout := ⟨-6, 13⟩

end Layout

/-- `digits * 10 ^ exponent` in the given layout -/
def ofDecimal (layout : Layout) (negative : Bool) (d : Decimal) : Numeral :=
  let ds := Nat.toDigits 10 d.digits
  let places := d.exponent.natAbs
  if layout.least ≤ d.leadExponent ∧ d.leadExponent < layout.limit then
    if 0 ≤ d.exponent then ⟨negative, ds ++ List.replicate places '0', ['0'], none⟩
    else if places < ds.length then ⟨negative, ds.take (ds.length - places), ds.drop (ds.length - places), none⟩
    else ⟨negative, ['0'], List.replicate (places - ds.length) '0' ++ ds, none⟩
  else ⟨negative, ds.take 1, ds.drop 1, some (d.leadExponent < 0, Nat.toDigits 10 d.leadExponent.natAbs)⟩

/-- a finite number by its bit pattern; of two equally near shortest decimals the even one -/
def ofBits? (f : FloatFormat) (layout : Layout) (bits : Nat) : Option Numeral :=
  match f.reading bits with
  | .finite negative m q => some (ofDecimal layout negative (if m = 0 then ⟨0, 0⟩ else f.shortest .even m q))
  | _ => none

/-! ## Reading -/

def toInt? (n : Numeral) : Option Int :=
  let magnitude := natOfDigits n.whole
  if n.isWhole ∧ ¬(n.negative = true ∧ magnitude = 0) then
    some (if n.negative then -(magnitude : Int) else magnitude)
  else none

/-- digits appended to a 64-bit significand as long as they fit, and the digits that no longer did -/
def takeDigits : Nat → List Char → Nat × List Char
  | sig, [] => (sig, [])
  | sig, c :: cs =>
    let next := 10 * sig + (c.toNat - '0'.toNat)
    if next < UInt64.size then takeDigits next cs else (sig, c :: cs)

/-- the significand, and the power of ten that it counts -/
def scaled (n : Numeral) : Nat × Int :=
  let (sig, left) := takeDigits 0 n.whole
  let (sig, lost) := takeDigits sig n.fraction
  let written : Int := match n.exponent with
    | none => 0
    | some (negative, ds) => if negative then -(natOfDigits ds) else natOfDigits ds
  (sig, written + left.length - (n.fraction.length - lost.length : Nat))

/-- largest power of ten that is scaled by at once -/
def scaleStep : Nat := 308

/-- the pattern divided by `10 ^ e`, at most `scaleStep` powers at a time -/
def scaleDown (bits : Nat) (e : Nat) : Nat :=
  if e ≤ scaleStep then FloatFormat.double.quotient bits (FloatFormat.double.powerOfTen e)
  else if bits = 0 then 0
  else scaleDown (FloatFormat.double.quotient bits (FloatFormat.double.powerOfTen scaleStep)) (e - scaleStep)
termination_by e
decreasing_by simp only [scaleStep] at *; omega

/-- the pattern multiplied by `10 ^ e`, unless it gets past every number -/
def scaleUp? (bits : Nat) (e : Nat) : Option Nat :=
  if e ≤ scaleStep then
    let product := FloatFormat.double.times bits (FloatFormat.double.powerOfTen e)
    if product = FloatFormat.double.infinityBits then none else some product
  else if bits = 0 then some 0
  else none

/-- the number as 64-bit floating point, unless it is past every number -/
def toDouble? (n : Numeral) : Option Double :=
  let (sig, e) := n.scaled
  let bits := FloatFormat.double.nearest false sig 1
  let scaledBits? := if e < 0 then some (scaleDown bits e.natAbs) else scaleUp? bits e.natAbs
  scaledBits?.map fun b => ⟨.ofNat (FloatFormat.double.withSign n.negative b)⟩

/-- the number as 32-bit floating point: a whole number of 64 bits is rounded at once, any other one twice -/
def toSingle? (n : Numeral) : Option Single :=
  match n.toInt? with
  | some i =>
    if Int64.minValue.toInt ≤ i ∧ i < UInt64.size then some ⟨.ofNat (FloatFormat.single.nearest n.negative i.natAbs 1)⟩
    else n.toDouble?.map Single.ofDouble
  | none => n.toDouble?.map Single.ofDouble

end Numeral

/-! ## The two floating-point domains -/

namespace Double

def numeral? (a : Double) : Option Numeral := Numeral.ofBits? .double .double a.bits.toNat

/-- infinities and NaNs are written as null -/
def toJson (a : Double) : Json :=
  match a.numeral? with
  | some n => .number n
  | none => .null

end Double

namespace Single

def numeral? (a : Single) : Option Numeral := Numeral.ofBits? .single .single a.bits.toNat

/-- infinities and NaNs are written as null -/
def toJson (a : Single) : Json :=
  match a.numeral? with
  | some n => .number n
  | none => .null

end Single

end ConceptGraph
