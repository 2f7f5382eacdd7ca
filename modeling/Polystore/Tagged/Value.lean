import Polystore.Json.Reading
import Polystore.Tagged.Basic
import Polystore.Value.Basic

/-! # Values as tagged JSON -/

namespace Polystore.Tagged
set_option autoImplicit false

/-! ## Writing -/

def instant (t : Instant) : Json := .obj [("secs", integer t.secs), ("nanos", .int t.nanos)]

mutual
def value : Value → Json
  | .null => .null
  | .bool b => .bool b
  | .int n => .obj [("int", integer n.toInt)]
  | .long n => .obj [("long", integer n.toInt)]
  | .double d => .obj [("double", double d)]
  | .str s => .str s
  | .uuid u => .obj [("uuid", .str u.text)]
  | .instant t => .obj [("instant", instant t)]
  | .json j => .obj [("json", .str j.text)]
  | .list vs => .arr (valueItems vs)
  | .map es => .obj [("map", .obj (entries es))]
  | .param name => .obj [("param", .str name)]
def valueItems : List Value → List Json
  | [] => []
  | v :: vs => value v :: valueItems vs
def entries : List (String × Value) → List (String × Json)
  | [] => []
  | (k, v) :: es => (k, value v) :: entries es
end

def values (vs : List Value) : Json := .arr (vs.map value)

def document (d : Document) : Json := value (.map d)

def optional : Option Value → Json
  | some v => .obj [("some", value v)]
  | none => .obj [("none", .bool true)]

/-! ## Reading -/

def instant? (j : Json) : Option Instant := do
  let secs ← (j.get? "secs").bind integer?
  let nanos ← (j.get? "nanos").bind natural?
  some ⟨secs, nanos⟩

/-- A value under the tag of its kind. -/
def scalar? (tag : String) (j : Json) : Option Value :=
  match tag with
  | "int" => (integer? j).map fun n => .int (Int32.ofInt n)
  | "long" => (integer? j).map fun n => .long (Int64.ofInt n)
  | "double" => (j.str?.bind double?).map .double
  | "uuid" => (j.str?.bind Uuid.ofText?).map .uuid
  | "instant" => (instant? j).map .instant
  | "json" => (j.str?.bind Json.parse?).map .json
  | "param" => j.str?.map .param
  | _ => none

mutual
def value? : Json → Option Value
  | .null => some .null
  | .bool b => some (.bool b)
  | .str s => some (.str s)
  | .arr js => (valueItems? js).map .list
  | .obj ms => tagged? ms
  | _ => none
def tagged? : List (String × Json) → Option Value
  | [(tag, .obj ms)] =>
    if tag == "map" then (entries? ms).map fun es => .map (Entries.ofList es)
    else scalar? tag (.obj ms)
  | [(tag, j)] => scalar? tag j
  | _ => none
def valueItems? : List Json → Option (List Value)
  | [] => some []
  | j :: js => do
    let v ← value? j
    let vs ← valueItems? js
    some (v :: vs)
def entries? : List (String × Json) → Option (List (String × Value))
  | [] => some []
  | (k, j) :: ms => do
    let v ← value? j
    let es ← entries? ms
    some ((k, v) :: es)
end

/-- The value under a key; a missing one is null. -/
def valueAt? (key : String) (j : Json) : Option Value :=
  match j.get? key with
  | none => some .null
  | some v => value? v

/-- The values under the members of an object; a missing object is empty. -/
def entriesAt? (key : String) (j : Json) : Option (Entries Value) :=
  ((members? key j).bind entries?).map Entries.ofList

def document? (j : Json) : Option Document :=
  match value? j with
  | some (.map d) => some d
  | _ => none

/-- The document under a key; a missing one is empty. -/
def documentAt? (key : String) (j : Json) : Option Document :=
  match member? key j with
  | none => some []
  | some d => document? d

def optional? (j : Json) : Option (Option Value) :=
  match j.get? "some" with
  | some v => (value? v).map some
  | none => some none

end Polystore.Tagged
