import Polystore.Types.UserType

/-! # Type tables

The user types of a dialect by id: its own, the scalars of all dialects, and containers, which are
built from their id when they are asked for. -/

namespace Polystore
set_option autoImplicit false

structure TypeTable where
  dialect : String
  overrides : Entries UserType

namespace TypeTable

def documentDialect : String := "document"

/-- The document dialect has a `json` of its own. -/
def ofDialect (dialect : String) : TypeTable :=
  ⟨dialect, if dialect == documentDialect then [(UserType.nativeJson.id, .nativeJson)] else []⟩

def named? (t : TypeTable) (id : String) : Option UserType :=
  (t.overrides.lookup id).or ((Scalar.ofId? id).map .scalar)

def unknown (t : TypeTable) (id : String) : CodecError := .unknownType id t.dialect

def scalar (t : TypeTable) (id : String) : Except CodecError UserType :=
  match t.named? id with
  | some u => .ok u
  | none => .error (t.unknown id)

/-- The type of a part of a container: references have none. -/
def part (t : TypeTable) : TypeRef → Except CodecError UserType
  | .scalar id => t.scalar id
  | .ref e => t.scalar (TypeRef.ref e).typeId
  | .value e => t.scalar (TypeRef.value e).typeId
  | .list e => (t.part e).map (.collection (TypeRef.list e).typeId .list)
  | .set e => (t.part e).map (.collection (TypeRef.set e).typeId .set)
  | .array e => (t.part e).map (.collection (TypeRef.array e).typeId .array)
  | .map k v => do
    let key ← t.part k
    let value ← t.part v
    .ok (.map (TypeRef.map k v).typeId key value)

/-- A type that is written as a whole keeps the text it is written in as its id. -/
def whole (t : TypeTable) (id : String) : TypeRef → Except CodecError UserType
  | .scalar s => t.scalar s
  | .ref _ => .error (t.unknown id)
  | .value _ => .error (t.unknown id)
  | .list e => (t.part e).map (.collection id .list)
  | .set e => (t.part e).map (.collection id .set)
  | .array e => (t.part e).map (.collection id .array)
  | .map k v => do
    let key ← t.part k
    let value ← t.part v
    .ok (.map id key value)

def get (t : TypeTable) (typeId : String) : Except CodecError UserType :=
  let id := Text.trim typeId
  match t.named? id with
  | some u => .ok u
  | none =>
    match TypeRef.parse id with
    | .ok r => t.whole id r
    | .error _ => .error (t.unknown id)

def contains (t : TypeTable) (typeId : String) : Bool := (t.get typeId).isOk

def encode (t : TypeTable) (typeId : String) (v : Value) : Except CodecError Value :=
  (t.get typeId).bind (·.encode v)

def decode (t : TypeTable) (typeId : String) (v : Value) : Except CodecError Value :=
  (t.get typeId).bind (·.decode v)

end TypeTable
end Polystore
