/-
The two floating-point domains, as bit patterns.

Two notions of sameness are kept apart. `sameNumber` is the comparison of the number line: a NaN equals nothing, and the
two zeros are equal. `identityBits` is the identity under which an attribute is stored: all NaNs are one and so are the
two zeros; any other pattern is its own identity.
-/
import ConceptGraph.Floating.Text

namespace ConceptGraph

namespace FloatFormat

variable (f : FloatFormat)

def isNaN (bits : Nat) : Bool := f.reading bits == .nan

def isZero (bits : Nat) : Bool := bits % f.signBit == 0

/-- equality on the number line -/
def sameNumber (a b : Nat) : Bool := !f.isNaN a && !f.isNaN b && (a == b || (f.isZero a && f.isZero b))

/-- the pattern under which a number is stored -/
def identityBits (bits : Nat) : Nat :=
  if f.isNaN bits then f.nanBits else if f.isZero bits then 0 else bits

end FloatFormat

/-- a 64-bit floating-point number -/
structure Double where
  bits : UInt64
  deriving DecidableEq, Repr

/-- a 32-bit floating-point number -/
structure Single where
  bits : UInt32
  deriving DecidableEq, Repr

namespace Double

def sameNumber (a b : Double) : Bool := FloatFormat.double.sameNumber a.bits.toNat b.bits.toNat
def identityBits (a : Double) : UInt64 := .ofNat (FloatFormat.double.identityBits a.bits.toNat)
def ofText? (text : String) : Option Double := (FloatFormat.double.readText? text).map fun n => ⟨.ofNat n⟩

instance : ToString Double := ⟨fun a => FloatFormat.double.plainText a.bits.toNat⟩

end Double

namespace Single

def sameNumber (a b : Single) : Bool := FloatFormat.single.sameNumber a.bits.toNat b.bits.toNat
def identityBits (a : Single) : UInt32 := .ofNat (FloatFormat.single.identityBits a.bits.toNat)
def ofText? (text : String) : Option Single := (FloatFormat.single.readText? text).map fun n => ⟨.ofNat n⟩

/-- a 64-bit number rounded to 32 bits -/
def ofDouble (a : Double) : Single :=
  match FloatFormat.double.reading a.bits.toNat with
  | .nan => ⟨.ofNat FloatFormat.single.nanBits⟩
  | .infinite negative => ⟨.ofNat (FloatFormat.single.withSign negative FloatFormat.single.infinityBits)⟩
  | .finite negative m q => ⟨.ofNat (FloatFormat.single.nearestBinary negative m q)⟩

instance : ToString Single := ⟨fun a => FloatFormat.single.plainText a.bits.toNat⟩

end Single

end ConceptGraph
