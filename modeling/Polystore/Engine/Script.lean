import Polystore.Documents.Execution
import Polystore.Sql.Execution

/-! # Scripted drivers

Drivers that answer from a script: each kind of call has one answer, and some calls fail. -/

namespace Polystore
set_option autoImplicit false

structure Script where
  rows : List Sql.ResultRow
  affected : UInt64
  generatedKey : Option Value
  documents : List Document
  count : UInt64
  insertedId : Option Value
  upsertedId : Option Value
  matched : UInt64
  modified : UInt64
  deleted : UInt64
  failing : List String
  /-- A text that makes the calls fail whose statement or collection it is part of. -/
  failingOn : String

namespace Script

def empty : Script := ⟨[], 0, none, [], 0, none, none, 0, 0, 0, [], ""⟩

/-- The failure of a call by its name and the text of its statement or collection. -/
def failure? (s : Script) (name subject : String) : Option String :=
  if s.failing.contains name then some ("injected " ++ name ++ " failure")
  else if !s.failingOn.isEmpty && Text.contains s.failingOn subject then
    some ("injected failure on " ++ s.failingOn)
  else none

def respond {α : Type} (s : Script) (name subject : String) (a : α) : Except String α :=
  match s.failure? name subject with
  | some cause => .error cause
  | none => .ok a

end Script

namespace Sql

def Call.name : Call → String
  | connect .. => "connect"
  | begin .. => "begin"
  | commit .. => "commit"
  | rollback .. => "rollback"
  | query .. => "query"
  | execute .. => "execute"
  | executeReturningKey .. => "execute_returning_key"

/-- The text of the statement. -/
def Call.subject : Call → String
  | query _ sql _ => sql
  | execute _ sql _ => sql
  | executeReturningKey _ sql _ => sql
  | _ => ""

def scriptedReply (s : Script) : (c : Call) → c.Reply
  | .connect .. => ()
  | .begin .. => ()
  | .commit .. => ()
  | .rollback .. => ()
  | .query .. => s.rows
  | .execute .. => s.affected
  | .executeReturningKey .. => s.generatedKey

def scripted : Driver interface where
  State := Script
  answer s c := (s.respond (Call.name c) (Call.subject c) (scriptedReply s c), s)

end Sql

namespace Documents

def Call.name : Call → String
  | start .. => "start"
  | commit .. => "commit"
  | abort .. => "abort"
  | find .. => "find"
  | aggregate .. => "aggregate"
  | count .. => "count"
  | insertOne .. => "insert_one"
  | updateOne .. => "update_one"
  | updateMany .. => "update_many"
  | deleteMany .. => "delete_many"

/-- The collection. -/
def Call.subject : Call → String
  | find _ st => st.collection
  | aggregate _ c _ => c
  | count _ c _ => c
  | insertOne _ c _ => c
  | updateOne _ c _ _ _ => c
  | updateMany _ c _ _ => c
  | deleteMany _ c _ => c
  | _ => ""

def scriptedReply (s : Script) : (c : Call) → c.Reply
  | .start .. => ()
  | .commit .. => ()
  | .abort .. => ()
  | .find .. => s.documents
  | .aggregate .. => s.documents
  | .count .. => s.count
  | .insertOne .. => s.insertedId
  | .updateOne .. => (⟨s.matched, s.modified, s.upsertedId⟩ : UpdateOutcome)
  | .updateMany .. => (⟨s.matched, s.modified, s.upsertedId⟩ : UpdateOutcome)
  | .deleteMany .. => s.deleted

def scripted : Driver interface where
  State := Script
  answer s c := (s.respond (Call.name c) (Call.subject c) (scriptedReply s c), s)

end Documents
end Polystore
