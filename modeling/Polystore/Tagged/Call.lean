import Polystore.Engine.Script
import Polystore.Tagged.Statement

/-! # Driver calls and scripts as tagged JSON -/

namespace Polystore.Tagged
set_option autoImplicit false

def handle (h : Handle) : Json := .arr [.str h.id, orNull .str h.schema, .bool h.multiTenant]

def inside : Place → Json
  | .within _ => .bool true
  | .alone _ => .bool false

def sqlCall (c : Sql.Call) : Json :=
  .arr (.str c.name :: match c with
    | .connect h => [handle h]
    | .query p sql args => [.str sql, sqlArgs args, inside p]
    | .execute p sql args => [.str sql, sqlArgs args, inside p]
    | .executeReturningKey p sql args => [.str sql, sqlArgs args, inside p]
    | _ => [])

def documentCall (c : Documents.Call) : Json :=
  .arr (.str c.name :: match c with
    | .start h => [handle h]
    | .find p st => [documentStatement st, inside p]
    | .aggregate p c ss => [.str c, stages ss, inside p]
    | .count p c f => [.str c, document f, inside p]
    | .insertOne _ c d => [.str c, document d]
    | .updateOne _ c f u upsert => [.str c, document f, document u, .bool upsert]
    | .updateMany _ c f u => [.str c, document f, document u]
    | .deleteMany _ c f => [.str c, document f]
    | _ => [])

/-! ## Scripts -/

def cell? : Json → Option (String × Value)
  | .arr [.str column, v] => (value? v).map fun v => (column, v)
  | _ => none

def row? : Json → Option Sql.ResultRow
  | .arr cells => cells.mapM cell?
  | _ => none

/-- The part of an object under a key, or what stands for it if it is missing. -/
def orElse? {α : Type} (key : String) (read : Json → Option α) (missing : α) (j : Json) : Option α :=
  match member? key j with
  | none => some missing
  | some v => read v

def listIn? {α : Type} (read : Json → Option α) : Json → Option (List α)
  | .arr js => js.mapM read
  | _ => none

/-- The script with what an object says put over what it said before. -/
def script? (s : Script) (j : Json) : Option Script := do
  let rows ← orElse? "rows" (listIn? row?) s.rows j
  let affected ← orElse? "affected" word? s.affected j
  let generatedKey ← orElse? "generated_key" optional? s.generatedKey j
  let documents ← orElse? "documents" (listIn? document?) s.documents j
  let count ← orElse? "count" word? s.count j
  let insertedId ← orElse? "inserted_id" optional? s.insertedId j
  let upsertedId ← orElse? "upserted_id" optional? s.upsertedId j
  let matched ← orElse? "matched" word? s.matched j
  let modified ← orElse? "modified" word? s.modified j
  let deleted ← orElse? "deleted" word? s.deleted j
  let failing ← orElse? "fail" (listIn? Json.str?) s.failing j
  let failingOn ← orElse? "fail_on" Json.str? s.failingOn j
  some ⟨rows, affected, generatedKey, documents, count, insertedId, upsertedId, matched, modified,
    deleted, failing, failingOn⟩

end Polystore.Tagged
