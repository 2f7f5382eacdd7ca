import Polystore.Entries
import Polystore.Instant
import Polystore.Json.Basic
import Polystore.Uuid

/-! # Values

The dynamic values of queries, payloads and rows, with their scalar views and their text. -/

namespace Polystore
set_option autoImplicit false

inductive Value where
  | null
  | bool (b : Bool)
  | int (n : Int32)
  | long (n : Int64)
  | double (d : Float)
  | str (s : String)
  | uuid (u : Uuid)
  | instant (t : Instant)
  /-- An opaque JSON payload. -/
  | json (j : Json)
  | list (items : List Value)
  | map (entries : List (String × Value))
  /-- A named parameter, to be replaced before a query is compiled. -/
  | param (name : String)
deriving Inhabited

/-- A document: field names and values in key order. -/
abbrev Document := Entries Value

inductive ValueKind where
  | null | bool | int | long | double | str | uuid | instant | json | list | map | param
deriving DecidableEq, Repr

def ValueKind.text : ValueKind → String
  | null => "null"
  | bool => "bool"
  | int => "int"
  | long => "long"
  | double => "double"
  | str => "string"
  | uuid => "uuid"
  | instant => "instant"
  | json => "json"
  | list => "list"
  | map => "map"
  | param => "param"

def ValueKind.all : List ValueKind :=
  [null, bool, int, long, double, str, uuid, instant, json, list, map, param]

def ValueKind.ofText? (s : String) : Option ValueKind := all.find? (·.text == s)

namespace Value

def kind : Value → ValueKind
  | null => .null
  | bool _ => .bool
  | int _ => .int
  | long _ => .long
  | double _ => .double
  | str _ => .str
  | uuid _ => .uuid
  | instant _ => .instant
  | json _ => .json
  | list _ => .list
  | map _ => .map
  | param _ => .param

def isNull : Value → Bool
  | null => true
  | _ => false

def str? : Value → Option String
  | str s => some s
  | _ => none

def map? : Value → Option Document
  | map m => some m
  | _ => none

/-- The integer a number stands for; a double beyond 64 bits stands for the nearest integer. -/
def int64? : Value → Option Int64
  | int n => some (Int64.ofInt n.toInt)
  | long n => some n
  | double d => (Double.integral? d).map Number.clamp64
  | _ => none

def double? : Value → Option Float
  | int n => some (Float.ofInt n.toInt)
  | long n => some (Float.ofInt n.toInt)
  | double d => some d
  | _ => none

/-! ## Equality -/

mutual
/-- Equality of values of one kind; doubles compare as numbers. -/
def same : Value → Value → Bool
  | null, null => true
  | bool a, bool b => a == b
  | int a, int b => a == b
  | long a, long b => a == b
  | double a, double b => a == b
  | str a, str b => a == b
  | uuid a, uuid b => a == b
  | instant a, instant b => a == b
  | json a, json b => a.same b
  | list a, list b => sameItems a b
  | map a, map b => sameEntries a b
  | param a, param b => a == b
  | _, _ => false
def sameItems : List Value → List Value → Bool
  | [], [] => true
  | a :: as, b :: bs => same a b && sameItems as bs
  | _, _ => false
def sameEntries : List (String × Value) → List (String × Value) → Bool
  | [], [] => true
  | (k, a) :: as, (l, b) :: bs => k == l && same a b && sameEntries as bs
  | _, _ => false
end

/-- The members of a list that equal no earlier one. -/
def dedup (vs : List Value) : List Value :=
  vs.foldl (fun kept v => if kept.any (same v) then kept else kept ++ [v]) []

/-! ## JSON -/

def paramOf? : List (String × Json) → Option String
  | [(k, .str name)] => if k == "param" || k == "$param" then some name else none
  | _ => none

mutual
/-- An object with the one member `param` or `$param` is a parameter; whole numbers that fit
64 signed bits are longs, all others doubles. -/
def ofJson : Json → Value
  | .null => null
  | .bool b => bool b
  | .int n => if Number.fits64 n then long (Int64.ofInt n) else double (Float.ofInt n)
  | .float d => double d
  | .str s => str s
  | .arr items => list (ofJsonItems items)
  | .obj members =>
    match paramOf? members with
    | some name => param name
    | none => map (Entries.ofList (ofJsonMembers members))
def ofJsonItems : List Json → List Value
  | [] => []
  | j :: js => ofJson j :: ofJsonItems js
def ofJsonMembers : List (String × Json) → List (String × Value)
  | [] => []
  | (k, j) :: ms => (k, ofJson j) :: ofJsonMembers ms
end

mutual
/-- Identifiers and instants become texts, doubles that are not finite null. -/
def toJson : Value → Json
  | null => .null
  | bool b => .bool b
  | int n => .int n.toInt
  | long n => .int n.toInt
  | double d => if d.isFinite then .float d else .null
  | str s => .str s
  | uuid u => .str u.text
  | instant t => .str t.text
  | json j => j
  | list items => .arr (toJsonItems items)
  | map entries => .obj (toJsonEntries entries)
  | param name => .obj [("param", .str name)]
def toJsonItems : List Value → List Json
  | [] => []
  | v :: vs => toJson v :: toJsonItems vs
def toJsonEntries : List (String × Value) → List (String × Json)
  | [] => []
  | (k, v) :: es => (k, toJson v) :: toJsonEntries es
end

/-! ## Views -/

/-- The operands of an operator over lists: null is none, and a single value is one. -/
def toList : Value → List Value
  | null => []
  | list items => items
  | json (.arr items) => ofJsonItems items
  | v => [v]

def text : Value → String
  | null => "null"
  | bool true => "true"
  | bool false => "false"
  | int n => n.toInt.repr
  | long n => n.toInt.repr
  | double d => Double.text d
  | str s => s
  | uuid u => u.text
  | instant t => t.text
  | param name => ":" ++ name
  | v => v.toJson.text

end Value
end Polystore
