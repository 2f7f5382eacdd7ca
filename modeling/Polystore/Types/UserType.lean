import Polystore.Model.TypeRef
import Polystore.Types.Scalar

/-! # User types

Scalars, collections and maps, with the two directions of conversion: `encode` from logical values
to what a store is given, `decode` back. -/

namespace Polystore
set_option autoImplicit false

inductive UserType where
  | scalar (s : Scalar)
  /-- JSON in a store that holds trees itself. -/
  | nativeJson
  | collection (id : String) (kind : TypeRef.Wrapper) (elem : UserType)
  | map (id : String) (key value : UserType)
deriving DecidableEq, Repr

namespace UserType

def id : UserType → String
  | scalar s => s.id
  | nativeJson => Scalar.json.id
  | collection id _ _ => id
  | map id _ _ => id

/-! ## JSON in a store of trees -/

def isTree : Json → Bool
  | .obj _ => true
  | .arr _ => true
  | _ => false

/-- Only texts of objects and arrays are read as JSON. -/
def decodeNative : Value → Value
  | .json j => Value.ofJson j
  | .str s =>
    match Json.parse? s with
    | some j => if isTree j then Value.ofJson j else .str s
    | none => .str s
  | v => v

def encodeNative : Value → Value
  | .json j => Value.ofJson j
  | v => v

/-! ## Containers -/

/-- The items of a collection: those of a list or of the text of a JSON array, none of null, and a
value by itself. -/
def items (v : Value) : List Value :=
  match v with
  | .str s =>
    if Text.startsWith "[" (Text.trimStart s) then
      match Json.parse? s with
      | some (.arr js) => Value.ofJsonItems js
      | _ => [.str s]
    else [.str s]
  | v => v.toList

/-- A set keeps the first of equal members. -/
def collect (kind : TypeRef.Wrapper) (vs : List Value) : Value :=
  .list (if kind = .set then Value.dedup vs else vs)

/-- The entries of a map or of a JSON object, which may stand in a text. -/
def entries? (v : Value) : Option Document :=
  match v with
  | .map m => some m
  | .json (.obj ms) => (Value.ofJson (.obj ms)).map?
  | .str s =>
    match Json.parse? s with
    | some (.obj ms) => (Value.ofJson (.obj ms)).map?
    | _ => none
  | _ => none

/-! ## Conversion -/

section
variable (convert : Value → Except CodecError Value)

def convertItems : List Value → Except CodecError (List Value)
  | [] => .ok []
  | v :: vs => do
    let w ← convert v
    let ws ← convertItems vs
    .ok (w :: ws)

variable (convertKey : Value → Except CodecError Value)

/-- Converted keys are written as texts; of two that become equal the later entry stays. -/
def convertEntries : Document → List (String × Value) → Except CodecError Document
  | done, [] => .ok done
  | done, (k, v) :: es => do
    let k ← convertKey (.str k)
    let v ← convert v
    convertEntries (Entries.insert k.text v done) es

end

def convertMap (id : String) (key value : Value → Except CodecError Value) (v : Value) :
    Except CodecError Value :=
  if v.isNull then .ok .null
  else match entries? v with
    | none => .error (.decode id v.kind.text "not a map")
    | some es => (convertEntries value key [] es).map .map

def convertCollection (kind : TypeRef.Wrapper) (elem : Value → Except CodecError Value)
    (v : Value) : Except CodecError Value :=
  if v.isNull then .ok .null else (convertItems elem (items v)).map (collect kind)

def decode : UserType → Value → Except CodecError Value
  | scalar s => s.decode
  | nativeJson => fun v => .ok (decodeNative v)
  | collection _ kind elem => convertCollection kind elem.decode
  | map id key value => convertMap id key.decode value.decode

def encode : UserType → Value → Except CodecError Value
  | scalar s => s.encode
  | nativeJson => fun v => .ok (encodeNative v)
  | collection _ kind elem => convertCollection kind elem.encode
  | map id key value => convertMap id key.encode value.encode

end UserType
end Polystore
