import Polystore.Documents.Writing
import Polystore.Engine.Backend

/-! # Running document statements

Statements go to the command of their kind, in the session of a transaction where there is one. -/

namespace Polystore.Documents
set_option autoImplicit false

inductive Call where
  | start (h : Handle)
  | commit (session : Nat)
  | abort (session : Nat)
  | find (place : Place) (st : Statement)
  | aggregate (place : Place) (collection : String) (pipeline : List Stage)
  | count (place : Place) (collection : String) (filter : Document)
  | insertOne (session : Nat) (collection : String) (d : Document)
  | updateOne (session : Nat) (collection : String) (filter update : Document) (upsert : Bool)
  | updateMany (session : Nat) (collection : String) (filter update : Document)
  | deleteMany (session : Nat) (collection : String) (filter : Document)

structure UpdateOutcome where
  matched : UInt64
  modified : UInt64
  /-- The key of the document that an upsert has made. -/
  upsertedId : Option Value

def Call.Reply : Call → Type
  | find .. => List Document
  | aggregate .. => List Document
  | count .. => UInt64
  | insertOne .. => Option Value
  | updateOne .. => UpdateOutcome
  | updateMany .. => UpdateOutcome
  | deleteMany .. => UInt64
  | _ => Unit

def interface : Interface := ⟨Call, Call.Reply⟩

def control (operation : String) (c : Call) : Request interface Unit := ⟨operation, c, fun _ => .ok ()⟩

def reading (operation : String) (place : Place) (st : Statement) : Request interface (List Document) :=
  match st.command with
  | .aggregate => ⟨operation, .aggregate place st.collection st.pipeline, fun ds => .ok ds⟩
  | _ => ⟨operation, .find place st, fun ds => .ok ds⟩

/-- A pipeline counts into a field of its first document. -/
def counting (place : Place) (st : Statement) : Request interface UInt64 :=
  match st.command with
  | .aggregate => (reading "count" place st).check fun ds =>
      Backend.counted types ((ds.head?.bind fun d => d.lookup countField).getD (.long 0))
  | _ => ⟨"count", .count place st.collection st.filter, fun n => .ok n⟩

def documentOf (st : Statement) : Except Error Document :=
  match st.document with
  | some d => .ok d
  | none => .error (.backend ⟨st.command.text,
      st.command.text ++ " statement on '" ++ st.collection ++ "' carries no document"⟩)

/-- A key that was known before is the key of the new document. -/
def inserting (session : Nat) (st : Statement) : Except Error (Request interface (Option Value)) :=
  (documentOf st).map fun d =>
    ⟨"insert", .insertOne session st.collection d, fun id => .ok (st.idHint.or id)⟩

def upserting (session : Nat) (st : Statement) : Except Error (Request interface (Option Value)) :=
  (documentOf st).map fun d =>
    ⟨"upsert", .updateOne session st.collection st.filter d true, fun r =>
      .ok (st.idHint.or (UpdateOutcome.upsertedId r))⟩

def updating (session : Nat) (st : Statement) : Except Error (Request interface UInt64) :=
  (documentOf st).map fun d =>
    match st.command with
    | .updateOne => ⟨"update", .updateOne session st.collection st.filter d false, fun r =>
        .ok (UpdateOutcome.modified r)⟩
    | _ => ⟨"update", .updateMany session st.collection st.filter d, fun r =>
        .ok (UpdateOutcome.modified r)⟩

def deleting (session : Nat) (st : Statement) : Request interface UInt64 :=
  ⟨"delete", .deleteMany session st.collection st.filter, fun n => .ok n⟩

def rowOf (v : View) (d : Document) : Row := .mapped (.plain d) v ""

def backend : Backend interface where
  Statement := Statement
  types := types
  policy := .explicit
  compileSelect := Documents.select
  compileCount := Documents.count
  compileWrite := Documents.write
  opening h _ := [control "begin" (.start h)]
  connecting _ := []
  commit n := control "commit" (.commit n)
  rollback n := control "rollback" (.abort n)
  select v place st := .ok ((reading "select" place st).map fun ds => ds.map (rowOf v))
  count place st := .ok (counting place st)
  insert := inserting
  upsert := upserting
  update := updating
  delete n st := .ok (deleting n st)

end Polystore.Documents
