import Polystore.Text.Basic
import Polystore.Value.Basic

/-! # Paths inside JSON fields -/

namespace Polystore.JsonPath
set_option autoImplicit false

def dropLead (lead s : String) : String := (Text.after? lead s).getD s

/-- `$.a.b`, `$a.b`, `.a.b` and `a.b` all name the segments `a` and `b`. -/
def segments (path : String) : List String :=
  let p := dropLead "." (dropLead "$" (dropLead "$." (Text.trim path)))
  if Text.isBlankText p then [] else Text.split '.' p

/-- The value wrapped in one map for each segment. -/
def wrap : List String → Value → Value
  | [], v => v
  | s :: ss, v => .map [(s, wrap ss v)]

/-- Without segments a map or list stands for itself, anything else under the key `value`. -/
def fragment (segs : List String) (v : Value) : Value :=
  if segs.isEmpty then
    match v with
    | .map m => .map m
    | .list vs => .list vs
    | v => .map [("value", v)]
  else wrap segs v

def operand? (v : Value) : Option (String × Value) :=
  match v with
  | .map m =>
    match m.lookup "path" with
    | some (.str p) => some (p, (m.lookup "value").getD .null)
    | _ => none
  | _ => none

end Polystore.JsonPath
