import Polystore.Number.Double

/-! # Shortest decimal text of a double

`shortest p` is the decimal with the fewest digits that reads back as `p`, the nearest of those to
`p`, an exact tie going to the even digit. A `Layout` says how such a decimal is written. -/

namespace Polystore.Double
set_option autoImplicit false

/-- The number `digits * 10^exp`. -/
structure Decimal where
  digits : Nat
  exp : Int
deriving Repr, DecidableEq

/-! ## The search -/

/-- `10^k` and `10^-k` as a numerator and a denominator factor. -/
def tens (k : Int) : Nat × Nat := (Nat.pow 10 k.toNat, Nat.pow 10 (-k).toNat)

/-- The point of the grid of step `10^k` that reads back as the value and is nearest to it.
The value and the ends of the interval that rounds to it are `v`, `lo`, `hi` over `den`. -/
def onGrid? (lo v hi den : Nat) (closed : Bool) (k : Int) : Option Nat :=
  let (up, down) := tens k
  let step := den * up
  let inside (d : Nat) : Bool :=
    if closed then lo * down ≤ d * step && d * step ≤ hi * down
    else lo * down < d * step && d * step < hi * down
  let below := v * down / step
  let rest := v * down % step
  let above := below + 1
  match inside below, inside above with
  | true, true =>
    if 2 * rest < step then some below
    else if step < 2 * rest then some above
    else if below % 2 == 0 then some below else some above
  | true, false => some below
  | false, true => some above
  | false, false => none

/-- The number of digits before the point of `num / den`; zero or less for values below one. -/
def magnitude (num den : Nat) : Int :=
  if den ≤ num then (Nat.toDigits 10 (num / den)).length
  else 1 - ((Nat.toDigits 10 (den / num)).length : Int)

/-- Tries one digit more in each step; seventeen digits always suffice. -/
def search (lo v hi den : Nat) (closed : Bool) : Nat → Int → Decimal
  | 0, k => ⟨v * (tens k).2 / (den * (tens k).1), k⟩
  | fuel + 1, k =>
    match onGrid? lo v hi den closed k with
    | some d => ⟨d, k⟩
    | none => search lo v hi den closed fuel (k - 1)

def shortest (p : Parts) : Decimal :=
  let e := p.exp - 2
  let up := Nat.pow 2 e.toNat
  let den := Nat.pow 2 (-e).toNat
  let v := 4 * p.mant * up
  let lo := (4 * p.mant - if p.gapBelow then 1 else 2) * up
  let hi := (4 * p.mant + 2) * up
  search lo v hi den (p.mant % 2 == 0) 17 (magnitude v den - 1)

/-! ## Layouts -/

/-- The digits without trailing zeros, and the place of the point counted from the first digit. -/
def Decimal.places (d : Decimal) : List Char × Int :=
  let cs := Nat.toDigits 10 d.digits
  let kept := (cs.reverse.dropWhile (· == '0')).reverse
  (kept, cs.length + d.exp)

/-- Positional notation is used while the point stands in `low < place ≤ high`; `plus` writes the
sign of a positive exponent. -/
structure Layout where
  low : Int
  high : Int
  plus : Bool

def zeros (n : Nat) : List Char := List.replicate n '0'

def intText (n : Int) : List Char := n.repr.toList

/-- Positional notation keeps a point with at least one digit on each side of it. -/
def Layout.write (l : Layout) (digits : List Char) (point : Int) : List Char :=
  if l.low < point && point ≤ l.high then
    if point ≤ 0 then '0' :: '.' :: zeros (-point).toNat ++ digits
    else
      let n := point.toNat
      if digits.length ≤ n then digits ++ zeros (n - digits.length) ++ ['.', '0']
      else digits.take n ++ '.' :: digits.drop n
  else
    let e := point - 1
    let exponent := 'e' :: (if l.plus && 0 ≤ e then ['+'] else []) ++ intText e
    match digits with
    | d :: d' :: rest => d :: '.' :: d' :: rest ++ exponent
    | _ => digits ++ exponent

def Layout.finiteText (l : Layout) (p : Parts) : String :=
  let sign := if p.neg then ['-'] else []
  if p.mant == 0 then String.ofList (sign ++ ['0', '.', '0'])
  else
    let (digits, point) := (shortest p).places
    String.ofList (sign ++ l.write digits point)

/-- Doubles in JSON text: positional from 1e-5 up to 1e16, positive exponents with a sign. -/
def jsonLayout : Layout := ⟨-5, 16, true⟩

/-- Doubles as plain text: the same ranges, positive exponents without a sign. -/
def plainLayout : Layout := ⟨-5, 16, false⟩

def text (d : Float) : String :=
  match parts? d with
  | some p => plainLayout.finiteText p
  | none => if d.isNaN then "NaN" else if isNegative d then "-inf" else "inf"

end Polystore.Double
