import Polystore.Model.Entity
import Polystore.Json.Reading

/-! # Model JSON

Entities and views are read from JSON objects whose keys must not repeat, or from arrays of the
same members in order; unknown keys are ignored. `toJson` writes every member back. -/

namespace Polystore
set_option autoImplicit false

/-! ## Records -/

namespace Json

/-- The value of a member that is known by any of some names; an error if it is given twice. -/
def memberOf? (names : List String) (ms : List (String × Json)) : Option (Option Json) :=
  match ms.filter fun m => names.contains m.1 with
  | [] => some none
  | [m] => some (some m.2)
  | _ => none

/-- The members of a record, each of which may be missing. -/
def record? (names : List (List String)) : Json → Option (List (Option Json))
  | obj ms => names.mapM fun ns => memberOf? ns ms
  | arr items =>
    if items.length ≤ names.length then
      some (items.map some ++ List.replicate (names.length - items.length) none)
    else none
  | _ => none

/-- A missing member has a default, a given one must be readable. -/
def orDefault {α : Type} (d : α) (read : Json → Option α) : Option Json → Option α
  | none => some d
  | some j => read j

def required {α : Type} (read : Json → Option α) : Option Json → Option α
  | none => none
  | some j => read j

/-- Null is nothing. -/
def optional {α : Type} (read : Json → Option α) : Json → Option (Option α)
  | null => some none
  | j => (read j).map some

/-- One of some words, alone or as the only key over a null. -/
def word? : Json → Option String
  | str s => some s
  | obj [(s, null)] => some s
  | _ => none

/-- The entries of an object in their order, repeated keys included. -/
def entries? {α : Type} (read : Json → Option α) : Json → Option (List (String × α))
  | obj ms => ms.mapM fun m => (read m.2).map fun a => (m.1, a)
  | _ => none

def sortedEntries? {α : Type} (read : Json → Option α) (j : Json) : Option (Entries α) :=
  (entries? read j).map Entries.ofList

def tree? (j : Json) : Option Json := some j.merge

end Json

open Json (record? orDefault required optional word? entries? sortedEntries? tree?)

/-! ## Reading -/

def MappingMode.ofJson? (j : Json) : Option MappingMode :=
  (word? j).bind fun s =>
    if s == "structured" then some .structured else if s == "blob" then some .blob else none

def Mapping.memberNames : List (List String) := [["ref"], ["column"], ["label"], ["mode"], ["fields"]]

/-- `depth` bounds the nesting of mappings. -/
def Mapping.read? : Nat → Json → Option Mapping
  | 0, _ => none
  | _ + 1, .str s => some (.direct s)
  | depth + 1, j => do
    match ← record? Mapping.memberNames j with
    | [ref, column, label, mode, fields] =>
      let ref ← orDefault none (optional Json.str?) ref
      let column ← orDefault none (optional Json.str?) column
      let label ← orDefault none (optional Json.str?) label
      let mode ← orDefault none (optional MappingMode.ofJson?) mode
      let fields ← orDefault [] (sortedEntries? (Mapping.read? depth)) fields
      some (.detailed ref column label mode fields)
    | _ => none

def Mapping.ofJson? (j : Json) : Option Mapping := Mapping.read? (j.depth + 1) j

def NativeQuery.ofJson? (j : Json) : Option NativeQuery := do
  match ← record? [["sql"], ["projection"], ["schema"]] j with
  | [sql, projection, schema] =>
    let sql ← orDefault none (optional tree?) sql
    let projection ← orDefault none (optional tree?) projection
    let schema ← orDefault false Json.bool? schema
    some ⟨sql, projection, schema⟩
  | _ => none

def View.ofJson? (j : Json) : Option View := do
  match ← record? [["id"], ["mapping"], ["native", "sqlView"]] j with
  | [id, mapping, native] =>
    let id ← required Json.str? id
    let mapping ← orDefault [] (sortedEntries? Mapping.ofJson?) mapping
    let native ← orDefault none (optional NativeQuery.ofJson?) native
    some ⟨id, mapping, native⟩
  | _ => none

def TypeRef.ofJson? (j : Json) : Option TypeRef :=
  j.str?.bind fun s => (TypeRef.parse s).toOption

def Field.ofJson? (j : Json) : Option Field := do
  match ← record? [["type"], ["key"], ["autoGenerated"], ["attrs"]] j with
  | [type, key, auto, attrs] =>
    let type ← required TypeRef.ofJson? type
    let key ← orDefault false Json.bool? key
    let auto ← orDefault false Json.bool? auto
    let attrs ← orDefault [] (sortedEntries? tree?) attrs
    some ⟨type, key, auto, attrs⟩
  | _ => none

def EntityKind.ofJson? (j : Json) : Option EntityKind :=
  (word? j).bind fun s =>
    if s == "ENTITY" then some .entity else if s == "VALUE" then some .value else none

def Entity.ofJson? (j : Json) : Option Entity := do
  match ← record? [["type"], ["kind"], ["source"], ["fields"], ["views"]] j with
  | [name, kind, source, fields, views] =>
    let name ← required Json.str? name
    let kind ← orDefault .entity EntityKind.ofJson? kind
    let source ← orDefault none (optional Json.str?) source
    let fields ← required (entries? Field.ofJson?) fields
    let views ← orDefault [] (sortedEntries? View.ofJson?) views
    some ⟨name, kind, source, fields, views⟩
  | _ => none

/-- A text that holds one tree of at most the greatest depth, read with repeated keys. -/
def Json.parseRecords? (s : String) : Option Json :=
  (Json.parseRaw? s).filter fun j => j.depth ≤ Json.maxDepth && j.isFinite

def View.ofText? (s : String) : Option View := (Json.parseRecords? s).bind View.ofJson?

def Entity.ofText? (s : String) : Option Entity := (Json.parseRecords? s).bind Entity.ofJson?

def Entity.listOfText? (s : String) : Option (List Entity) :=
  match Json.parseRecords? s with
  | some (.arr items) => items.mapM Entity.ofJson?
  | _ => none

/-! ## Writing -/

def Json.ofOption {α : Type} (write : α → Json) : Option α → Json
  | none => .null
  | some a => write a

/-- Members whose value is missing are left out. -/
def Json.objOf (ms : List (String × Option Json)) : Json :=
  .obj (ms.filterMap fun (k, v) => v.map fun j => (k, j))

mutual
def Mapping.toJson : Mapping → Json
  | .direct c => .str c
  | .detailed ref column label mode fields =>
    Json.objOf [("ref", ref.map .str), ("column", column.map .str), ("label", label.map .str),
      ("mode", mode.map fun m => .str m.text),
      ("fields", if fields.isEmpty then none else some (.obj (Mapping.fieldsToJson fields)))]
def Mapping.fieldsToJson : List (String × Mapping) → List (String × Json)
  | [] => []
  | (k, m) :: ms => (k, m.toJson) :: Mapping.fieldsToJson ms
end

def NativeQuery.toJson (n : NativeQuery) : Json :=
  .obj [("sql", Json.ofOption id n.sql), ("projection", Json.ofOption id n.projection),
    ("schema", .bool n.schema)]

def View.toJson (v : View) : Json :=
  .obj [("id", .str v.id), ("mapping", .obj (Mapping.fieldsToJson v.mapping)),
    ("native", Json.ofOption NativeQuery.toJson v.native)]

def Field.toJson (f : Field) : Json :=
  .obj [("type", .str f.type.text), ("key", .bool f.key), ("autoGenerated", .bool f.autoGenerated),
    ("attrs", .obj f.attrs)]

def Entity.toJson (e : Entity) : Json :=
  .obj [("type", .str e.name), ("kind", .str e.kind.text),
    ("source", Json.ofOption .str e.sourceText),
    ("fields", .obj (e.fields.map fun (k, f) => (k, f.toJson))),
    ("views", .obj (e.views.map fun (k, v) => (k, v.toJson)))]

end Polystore
