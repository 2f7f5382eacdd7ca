import Polystore.Error
import Polystore.Json.Reading
import Polystore.Value.Basic

/-! # Scalar types

Coercion of a value to a scalar type. Numbers convert into each other when they stand for the same
integer, texts of numbers and booleans are read, and a blank text is null. -/

namespace Polystore
set_option autoImplicit false

inductive Scalar where
  | string | int | long | bool | double | uuid | instant | json
deriving DecidableEq, Repr

namespace Scalar

def all : List Scalar := [string, int, long, bool, double, uuid, instant, json]

def id : Scalar → String
  | string => "string"
  | int => "int"
  | long => "long"
  | bool => "bool"
  | double => "double"
  | uuid => "uuid"
  | instant => "instant"
  | json => "json"

def ofId? (s : String) : Option Scalar := all.find? (·.id == s)

theorem ofId?_id (s : Scalar) : ofId? s.id = some s := by cases s <;> rfl

/-- A coerced value, or the reason why there is none. -/
abbrev Coerced := Except String Value

/-- A scalar in a JSON payload counts as that scalar. -/
def unwrap (s : Scalar) : Value → Value
  | .json j => if s != json && j.isScalar then Value.ofJson j else .json j
  | v => v

def toText : Value → Coerced
  | .list _ => .error "not a scalar"
  | .map _ => .error "not a scalar"
  | .json _ => .error "not a scalar"
  | v => .ok (.str v.text)

/-- The integer a value stands for; none for a blank text. A text that is no 64-bit integer is
read as a double. -/
def integer (v : Value) : Except String (Option Int64) :=
  match v with
  | .str s =>
    let t := Text.trim s
    if t.isEmpty then .ok none
    else match Number.int64? t with
      | some n => .ok (some n)
      | none =>
        match (Number.double? t).bind Double.integral? with
        | some n => .ok (some (Number.clamp64 n))
        | none => .error s!"'{t}' is not an integer"
  | v =>
    match v.int64? with
    | some n => .ok (some n)
    | none => .error "not an integer"

def toLong (v : Value) : Coerced :=
  (integer v).map fun
    | none => .null
    | some n => .long n

def toInt (v : Value) : Coerced :=
  match integer v with
  | .error e => .error e
  | .ok none => .ok .null
  | .ok (some n) =>
    if Number.fits32 n.toInt then .ok (.int (Int32.ofInt n.toInt))
    else .error "out of range for int"

def toDouble (v : Value) : Coerced :=
  match v with
  | .str s =>
    let t := Text.trim s
    if t.isEmpty then .ok .null
    else match Number.double? t with
      | some d => .ok (.double d)
      | none => .error "invalid float literal"
  | v =>
    match v.double? with
    | some d => .ok (.double d)
    | none => .error "not numeric"

def toBool (v : Value) : Coerced :=
  match v with
  | .bool b => .ok (.bool b)
  | .str s =>
    let t := Text.lowerAscii (Text.trim s)
    if t.isEmpty then .ok .null
    else if t == "true" || t == "1" then .ok (.bool true)
    else if t == "false" || t == "0" then .ok (.bool false)
    else .error "not a boolean"
  | v =>
    match v.int64? with
    | some n =>
      if n == 0 then .ok (.bool false)
      else if n == 1 then .ok (.bool true) else .error "not a boolean"
    | none => .error "not a boolean"

def toUuid (v : Value) : Coerced :=
  match v with
  | .uuid u => .ok (.uuid u)
  | .str s =>
    let t := Text.trim s
    if t.isEmpty then .ok .null
    else match Uuid.ofText? t with
      | some u => .ok (.uuid u)
      | none => .error "malformed uuid"
  | _ => .error "not a uuid"

/-- Numbers are milliseconds since 1970. -/
def toInstant (v : Value) : Coerced :=
  match v with
  | .instant t => .ok (.instant t)
  | .str s =>
    let t := Text.trim s
    if t.isEmpty then .ok .null
    else match Instant.ofText? t with
      | some t => .ok (.instant t)
      | none => .error "malformed instant"
  | v =>
    match v.int64? with
    | some ms =>
      match Instant.ofMillis? ms.toInt with
      | some t => .ok (.instant t)
      | none => .error "epoch millis out of range"
    | none => .error "not an instant"

/-- A text is read as JSON if it is JSON, and kept otherwise. -/
def toTree : Value → Value
  | .str s =>
    match Json.parse? s with
    | some j => Value.ofJson j
    | none => .str s
  | .json j => Value.ofJson j
  | v => v

def coerceTo : Scalar → Value → Coerced
  | string => toText
  | int => toInt
  | long => toLong
  | bool => toBool
  | double => toDouble
  | uuid => toUuid
  | instant => toInstant
  | json => fun v => .ok (toTree v)

def decode (s : Scalar) (v : Value) : Except CodecError Value :=
  let w := s.unwrap v
  if w.isNull then .ok .null
  else match s.coerceTo w with
    | .ok r => .ok r
    | .error reason => .error (.decode s.id w.kind.text reason)

/-- A tree is stored as JSON text, a text as it is. -/
def encodeTree : Value → Value
  | .null => .null
  | .str s => .str s
  | v => .str v.toJson.text

def encode (s : Scalar) (v : Value) : Except CodecError Value :=
  if s = json then .ok (encodeTree v)
  else match s.decode v with
    | .ok r => .ok r
    | .error _ => .error (.encode s.id v.kind.text)

end Scalar
end Polystore
