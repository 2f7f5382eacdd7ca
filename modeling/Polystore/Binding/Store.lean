import Polystore.Binding.Table
import Polystore.Value.Path

/-! # Binders of the stores

Parameter lists of relational statements and documents as targets, with their binders. -/

namespace Polystore
set_option autoImplicit false

/-! ## Parameter lists -/

/-- An argument as a relational driver takes it. -/
inductive SqlArg where
  | plain (v : Value)
  | timestamp (t : Instant)
  | jsonText (text : String)
  /-- A JSON parameter of its own type; none is the null of the store. -/
  | jsonb (text : Option String)
  | array (elementType : String) (items : List Value)

/-- The parameter slots of a statement, some of which may not be filled. -/
abbrev BoundParams := List (Option SqlArg)

namespace BoundParams

/-- Fills a slot counted from zero, behind empty ones if it lies beyond the end. -/
def put (arg : SqlArg) : Nat → BoundParams → BoundParams
  | 0, [] => [some arg]
  | 0, _ :: r => some arg :: r
  | n + 1, [] => none :: put arg n []
  | n + 1, s :: r => s :: put arg n r

/-- Fills a slot counted from one. -/
def set (ps : BoundParams) (position : Nat) (arg : SqlArg) : BoundParams := put arg (position - 1) ps

/-- A slot that is not filled is null. -/
def args (ps : BoundParams) : List SqlArg := ps.map (·.getD (.plain .null))

end BoundParams

/-! ## Targets -/

inductive StoreTarget where
  | params | document
deriving DecidableEq, Repr

def storeTargets : Targets where
  Key := StoreTarget
  keyEq := inferInstance
  Carrier
    | .params => BoundParams
    | .document => Document
  name
    | .params => "BoundParams"
    | .document => "BTreeMap"

abbrev StoreBinders := BinderTable storeTargets

def paramsEntry (b : Binder BoundParams) : BinderEntry storeTargets := ⟨.params, b⟩

def documentEntry (b : Binder Document) : BinderEntry storeTargets := ⟨.document, b⟩

/-! ## Relational binders -/

/-- A binder that fills the slot of its context with an argument made from the value. -/
def slotBinder (kind : Option ValueKind) (supports : String → Bool) (arg : String → Value → SqlArg) :
    Binder BoundParams where
  kind := kind
  supports _ b _ := supports b.typeId
  bind ps ctx b v := .ok (ps.set (ctx.position?.getD 1) (arg b.typeId v))

def timestampArg : Value → SqlArg
  | .instant t => .timestamp t
  | v => .plain v

def timestampBinder : Binder BoundParams :=
  slotBinder (some .instant) (fun _ => true) fun _ => timestampArg

/-- Collections go as JSON text where the dialect has no arrays. -/
def containerBinder : Binder BoundParams :=
  slotBinder (some .list) (fun t => (elementTypeId? t).isSome) fun _ v => .jsonText v.toJson.text

def plainBinder : Binder BoundParams := slotBinder none (fun _ => true) fun _ => .plain

def jsonbText : Value → Option String
  | .null => none
  | .str s => some s
  | v => some v.toJson.text

def jsonbBinder : Binder BoundParams :=
  slotBinder none (· == "json") fun _ v => .jsonb (jsonbText v)

def arrayElement? (typeId : String) : Option String :=
  (elementTypeId? typeId).bind fun e =>
    [("string", "text"), ("int", "int4"), ("long", "int8"), ("double", "float8"), ("bool", "bool"),
      ("uuid", "uuid")].lookup e

def arrayBinder : Binder BoundParams :=
  slotBinder (some .list) (fun t => (arrayElement? t).isSome) fun t v =>
    .array ((arrayElement? t).getD "text") v.toList

/-- The shared relational binders, and those of Postgres in front of them. -/
def defaultBinders : StoreBinders where
  perDialect := [("postgres", paramsEntry jsonbBinder), ("postgres", paramsEntry arrayBinder)]
  shared := [paramsEntry timestampBinder, paramsEntry containerBinder, paramsEntry plainBinder]

/-! ## Document binders -/

/-- The path to write at; a blank one is none. -/
def boundPath? (ctx : BindContext) : Option String := ctx.path?.filter (!Text.isBlankText ·)

def putAt (d : Document) (ctx : BindContext) (v : Value) : Document :=
  match boundPath? ctx with
  | some p => d.setPath p v
  | none => d

mutual
/-- Identifiers are stored as texts, also inside lists. -/
def uuidText : Value → Value
  | .uuid u => .str u.text
  | .list items => .list (uuidTexts items)
  | v => v
def uuidTexts : List Value → List Value
  | [] => []
  | v :: vs => uuidText v :: uuidTexts vs
end

def malformedInstant (v : Value) (reason : String) : CodecError :=
  .decode "instant" v.kind.text reason

def instantOfNumber (v : Value) (n : Int64) : Except CodecError Value :=
  match Instant.ofMillis? n.toInt with
  | some t => .ok (.instant t)
  | none => .error (malformedInstant v "epoch millis out of range")

mutual
/-- Instants are stored as instants, also when they come as text or milliseconds. -/
def asInstant : Value → Except CodecError Value
  | .str s =>
    match Instant.ofText? (Text.trim s) with
    | some t => .ok (.instant t)
    | none => .error (malformedInstant (.str s) "malformed instant")
  | .int n => instantOfNumber (.int n) (Int64.ofInt n.toInt)
  | .long n => instantOfNumber (.long n) n
  | .list items => (asInstants items).map .list
  | v => .ok v
def asInstants : List Value → Except CodecError (List Value)
  | [] => .ok []
  | v :: vs => do
    let w ← asInstant v
    let ws ← asInstants vs
    .ok (w :: ws)
end

def typeAmong (ids : List String) (b : Bind) : Bool :=
  ids.contains (Text.lowerAscii (Text.trim b.typeId))

def isIdPath (ctx : BindContext) : Bool :=
  match boundPath? ctx with
  | some p => p == "_id" || p == "id"
  | none => false

def isIdValue (v : Value) : Bool := v.kind == .uuid || v.kind == .str

def idBinder : Binder Document where
  kind := none
  supports ctx _ v := isIdPath ctx && isIdValue v
  bind d ctx _ v := .ok (putAt d ctx (uuidText v))

def uuidBinder : Binder Document where
  kind := none
  supports ctx b _ := (boundPath? ctx).isSome && typeAmong ["uuid", "list<uuid>", "set<uuid>"] b
  bind d ctx _ v := .ok (putAt d ctx (uuidText v))

def instantBinder : Binder Document where
  kind := none
  supports ctx b _ :=
    (boundPath? ctx).isSome && typeAmong ["instant", "list<instant>", "set<instant>"] b
  bind d ctx _ v := (lift .codec (asInstant v)).map (putAt d ctx)

def pathBinder : Binder Document where
  kind := none
  supports ctx _ _ := (boundPath? ctx).isSome
  bind d ctx _ v := .ok (putAt d ctx v)

def documentBinders : StoreBinders where
  perDialect := [idBinder, uuidBinder, instantBinder, pathBinder].map fun b =>
    ("document", documentEntry b)
  shared := []

end Polystore
