/-! # Doubles as exact numbers

A finite double is a sign, a natural mantissa and a power of two; everything that reads or writes
doubles as text works on these, in exact arithmetic. -/

namespace Polystore.Double
set_option autoImplicit false

/-- The number `(-1)^neg * mant * 2^exp`; `gapBelow` tells that the next double below is half as
far away as the next one above. -/
structure Parts where
  neg : Bool
  mant : Nat
  exp : Int
  gapBelow : Bool
deriving Repr

/-- The fractions of fifty-two bits: how many there are. -/
def fractions : Nat := 4503599627370496

/-- The exponents of eleven bits: how many there are. -/
def exponents : Nat := 2048

/-- The sign is the first bit, before the exponent and the fraction. -/
def isNegative (d : Float) : Bool := d.toBits.toNat / (exponents * fractions) == 1

def parts? (d : Float) : Option Parts :=
  let n : Nat := d.toBits.toNat
  let neg := isNegative d
  let e : Nat := n / fractions % exponents
  let f : Nat := n % fractions
  if e == 2047 then none
  else if e == 0 then some ⟨neg, f, -1074, false⟩
  else some ⟨neg, fractions + f, e - 1075, f == 0 && 1 < e⟩

/-- The integer a double equals, if it is one. -/
def integral? (d : Float) : Option Int :=
  match parts? d with
  | none => none
  | some p =>
    let signed (n : Nat) : Int := if p.neg then -(n : Int) else n
    if 0 ≤ p.exp then some (signed (p.mant * Nat.pow 2 p.exp.toNat))
    else
      let s := Nat.pow 2 (-p.exp).toNat
      if p.mant % s == 0 then some (signed (p.mant / s)) else none

end Polystore.Double
