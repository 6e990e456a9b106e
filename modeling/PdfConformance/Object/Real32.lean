/-! # Real numbers of a document

A real number is held as a binary number of 32 bits. Every finite one is a whole number of units of
2⁻¹⁴⁹, the distance between the smallest two, so comparisons are made on integers and are exact. -/

namespace PdfConformance

/-- Sign, eight bits of exponent and 23 bits of fraction, from the highest bit down. -/
structure Real32 where
  bits : UInt32
  deriving DecidableEq, Repr

namespace Real32

def isNegative (x : Real32) : Bool := 0x80000000 ≤ x.bits.toNat

def exponent (x : Real32) : Nat := x.bits.toNat / 0x800000 % 0x100

def fraction (x : Real32) : Nat := x.bits.toNat % 0x800000

/-- The number 1 in units of 2⁻¹⁴⁹. -/
def unit : Nat := 1 <<< 149

/-- The absolute value of a finite number, in units. The least exponent has no leading bit. -/
def magnitude (x : Real32) : Nat :=
  if x.exponent = 0 then x.fraction else (0x800000 + x.fraction) <<< (x.exponent - 1)

/-- The number in units; none for the infinities and for what is no number. -/
def units? (x : Real32) : Option Int :=
  if x.exponent = 255 then none
  else if x.isNegative then some (-(x.magnitude : Int))
  else some x.magnitude

end Real32

end PdfConformance
