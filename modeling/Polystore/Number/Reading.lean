import Polystore.Text.Basic
import Polystore.Number.Double

/-! # Numbers from text

Signed integers, and doubles in positional or exponent form, rounded to the nearest double. -/

namespace Polystore.Number
set_option autoImplicit false

/-! ## Integers -/

def digitsValue (cs : List Char) : Nat := cs.foldl (fun n c => 10 * n + (c.toNat - 48)) 0

/-- A non-empty run of digits, and nothing else. -/
def natOfChars? (cs : List Char) : Option Nat :=
  if cs.isEmpty || !cs.all Char.isDigit then none else some (digitsValue cs)

def splitSign : List Char → Bool × List Char
  | '-' :: r => (true, r)
  | '+' :: r => (false, r)
  | r => (false, r)

def int? (s : String) : Option Int :=
  let (neg, r) := splitSign s.toList
  (natOfChars? r).map fun n => if neg then -(n : Int) else n

def fits32 (n : Int) : Bool := Int32.minValue.toInt ≤ n && n ≤ Int32.maxValue.toInt

def fits64 (n : Int) : Bool := Int64.minValue.toInt ≤ n && n ≤ Int64.maxValue.toInt

def int64? (s : String) : Option Int64 :=
  (int? s).bind fun n => if fits64 n then some (Int64.ofInt n) else none

def clamp64 (n : Int) : Int64 :=
  if n < Int64.minValue.toInt then Int64.minValue
  else if Int64.maxValue.toInt < n then Int64.maxValue
  else Int64.ofInt n

/-! ## Doubles -/

def infinity : Float := Float.ofBits 0x7ff0000000000000

def signed (neg : Bool) (d : Float) : Float := if neg then -d else d

/-- The double nearest to `mant * 10^exp`; beyond the largest one it is infinite. -/
def nearest (mant : Nat) (exp : Int) : Float :=
  if mant == 0 then 0
  else
    let place := ((Nat.toDigits 10 mant).length : Int) + exp
    if 400 < place then infinity
    else if place < -400 then 0
    else Float.ofScientific mant (exp < 0) exp.natAbs

/-- A power of ten as text after the digits: nothing, or `e` with an optional sign and digits. -/
def exponent? : List Char → Option Int
  | [] => some 0
  | c :: r =>
    if c == 'e' || c == 'E' then
      let (neg, ds) := splitSign r
      (natOfChars? ds).map fun n => if neg then -(n : Int) else n
    else none

def decimal? (cs : List Char) : Option Float :=
  let whole := cs.takeWhile Char.isDigit
  let rest := cs.dropWhile Char.isDigit
  let (frac, rest) := match rest with
    | '.' :: r => (r.takeWhile Char.isDigit, r.dropWhile Char.isDigit)
    | r => ([], r)
  if whole.isEmpty && frac.isEmpty then none
  else (exponent? rest).map fun e => nearest (digitsValue (whole ++ frac)) (e - frac.length)

def double? (s : String) : Option Float :=
  let (neg, r) := splitSign s.toList
  let word := Text.lowerAscii (String.ofList r)
  if word == "inf" || word == "infinity" then some (signed neg infinity)
  else if word == "nan" then some (0.0 / 0.0)
  else (decimal? r).map (signed neg)

end Polystore.Number
