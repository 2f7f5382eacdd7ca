import Polystore.Json.Reading
import Polystore.Number.Reading

/-! # Tagged JSON

A notation in which nothing is lost: kinds that JSON does not tell apart stand under a tag, whole
numbers of 64 bits are texts, and doubles are written bit by bit. This module has its members and
its numbers. -/

namespace Polystore.Tagged
set_option autoImplicit false

/-! ## Members -/

/-- The member under a key, unless it is null. -/
def member? (key : String) (j : Json) : Option Json :=
  match j.get? key with
  | some .null => none
  | r => r

def text? (key : String) (j : Json) : Option String := (member? key j).bind Json.str?

def flag (key : String) (j : Json) : Bool := ((member? key j).bind Json.bool?).getD false

def listOf? : Json → Option (List Json)
  | .arr js => some js
  | _ => none

/-- The list under a key; a missing one is empty. -/
def items? (key : String) (j : Json) : Option (List Json) :=
  match member? key j with
  | none => some []
  | some l => listOf? l

def texts? (key : String) (j : Json) : Option (List String) :=
  (items? key j).bind fun js => js.mapM Json.str?

/-- The members of the object under a key; a missing one is empty. -/
def members? (key : String) (j : Json) : Option (List (String × Json)) :=
  match member? key j with
  | none => some []
  | some (.obj ms) => some ms
  | some _ => none

def texts (ss : List String) : Json := .arr (ss.map .str)

def orNull {α : Type} (f : α → Json) : Option α → Json
  | none => .null
  | some a => f a

/-! ## Numbers -/

def integer (n : Int) : Json := .str n.repr

def word (n : UInt64) : Json := integer n.toNat

/-- A number, also in the form of a text. -/
def integer? : Json → Option Int
  | .int n => some n
  | .str s => Number.int? s
  | _ => none

def natural? (j : Json) : Option Nat := (integer? j).map Int.toNat

def word? (j : Json) : Option UInt64 := (natural? j).map UInt64.ofNat

/-- Sixteen hexadecimal digits of the bits; all that is not a number is written alike. -/
def double (d : Float) : Json :=
  if d.isNaN then .str "nan"
  else
    let ds := Nat.toDigits 16 d.toBits.toNat
    .str (String.ofList (List.replicate (16 - ds.length) '0' ++ ds))

def bits? : Nat → List Char → Option Nat
  | n, [] => some n
  | n, c :: cs => (Json.hexValue? c).bind fun d => bits? (n * 16 + d) cs

def double? (s : String) : Option Float :=
  if s == "nan" then some (0.0 / 0.0)
  else (bits? 0 s.toList).map fun n => Float.ofBits (UInt64.ofNat n)

end Polystore.Tagged
