import Polystore.Types.Table

/-! # Type caches

A type table that keeps the containers it has built, those inside other containers included. -/

namespace Polystore
set_option autoImplicit false

structure TypeCache where
  table : TypeTable
  built : Entries UserType

namespace TypeCache

def ofTable (t : TypeTable) : TypeCache := ⟨t, []⟩

abbrev Step := Except CodecError UserType × TypeCache

/-- Keeps what was built under an id; failures are not kept. -/
def keep (id : String) : Step → Step
  | (.ok u, c) => (.ok u, ⟨c.table, Entries.insert id u c.built⟩)
  | (.error e, c) => (.error e, c)

/-- Looks an id up among the named types and the built ones before building it. -/
def orBuild (c : TypeCache) (id : String) (build : TypeCache → Step) : Step :=
  match c.table.named? id with
  | some u => (.ok u, c)
  | none =>
    match c.built.lookup id with
    | some u => (.ok u, c)
    | none => keep id (build c)

def mapStep (f : UserType → UserType) : Step → Step
  | (r, c) => (r.map f, c)

def mapBoth (f : UserType → UserType → UserType) (first : Step) (second : TypeCache → Step) : Step :=
  match first with
  | (.error e, c) => (.error e, c)
  | (.ok a, c) => mapStep (f a) (second c)

def named (id : String) (c : TypeCache) : Step := (c.table.scalar id, c)

def part : TypeRef → TypeCache → Step
  | .scalar id, c => named id c
  | .ref e, c => named (TypeRef.ref e).typeId c
  | .value e, c => named (TypeRef.value e).typeId c
  | .list e, c =>
    let id := (TypeRef.list e).typeId
    c.orBuild id fun c => mapStep (.collection id .list) (part e c)
  | .set e, c =>
    let id := (TypeRef.set e).typeId
    c.orBuild id fun c => mapStep (.collection id .set) (part e c)
  | .array e, c =>
    let id := (TypeRef.array e).typeId
    c.orBuild id fun c => mapStep (.collection id .array) (part e c)
  | .map k v, c =>
    let id := (TypeRef.map k v).typeId
    c.orBuild id fun c => mapBoth (.map id) (part k c) (part v)

def whole (id : String) (c : TypeCache) : TypeRef → Step
  | .scalar s => named s c
  | .ref _ => (.error (c.table.unknown id), c)
  | .value _ => (.error (c.table.unknown id), c)
  | .list e => mapStep (.collection id .list) (part e c)
  | .set e => mapStep (.collection id .set) (part e c)
  | .array e => mapStep (.collection id .array) (part e c)
  | .map k v => mapBoth (.map id) (part k c) (part v)

def get (c : TypeCache) (typeId : String) : Step :=
  let id := Text.trim typeId
  c.orBuild id fun c =>
    match TypeRef.parse id with
    | .ok r => whole id c r
    | .error _ => (.error (c.table.unknown id), c)

def contains (c : TypeCache) (typeId : String) : Bool × TypeCache :=
  let (r, c) := c.get typeId
  (r.isOk, c)

def encode (c : TypeCache) (typeId : String) (v : Value) : Except CodecError Value × TypeCache :=
  let (r, c) := c.get typeId
  (r.bind (·.encode v), c)

def decode (c : TypeCache) (typeId : String) (v : Value) : Except CodecError Value × TypeCache :=
  let (r, c) := c.get typeId
  (r.bind (·.decode v), c)

end TypeCache
end Polystore
