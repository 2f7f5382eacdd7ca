import Polystore.Engine.Backend
import Polystore.Sql.Compile
import Polystore.Sql.Prepare

/-! # Running SQL statements

A connection is opened for a transaction, and for every read outside of one. -/

namespace Polystore.Sql
set_option autoImplicit false

abbrev ResultRow := List (String × Value)

inductive Call where
  | connect (h : Handle)
  | begin (connection : Nat)
  | commit (connection : Nat)
  | rollback (connection : Nat)
  | query (place : Place) (sql : String) (args : List SqlArg)
  | execute (place : Place) (sql : String) (args : List SqlArg)
  | executeReturningKey (place : Place) (sql : String) (args : List SqlArg)

def Call.Reply : Call → Type
  | query .. => List ResultRow
  | execute .. => UInt64
  | executeReturningKey .. => Option Value
  | _ => Unit

def interface : Interface := ⟨Call, Call.Reply⟩

inductive Outcome where
  | rows (rows : List ResultRow)
  | count (n : UInt64)
  | key (k : Option Value)

namespace Outcome

def rows? : Outcome → List ResultRow
  | rows rs => rs
  | _ => []

def key? : Outcome → Option Value
  | key k => k
  | _ => none

def affected : Outcome → UInt64
  | count n => n
  | rows rs => UInt64.ofNat rs.length
  | key k => if k.isSome then 1 else 0

end Outcome

def firstValue? (rows : List ResultRow) : Option Value :=
  (rows.head?.bind List.head?).map (·.2)

def request (operation : String) (place : Place) (p : Prepared) : ExecKind → Request interface Outcome
  | .query => ⟨operation, .query place p.text p.args, fun rows => .ok (.rows rows)⟩
  | .update => ⟨operation, .execute place p.text p.args, fun n => .ok (.count n)⟩
  | .updateGeneratedKeys =>
    ⟨operation, .executeReturningKey place p.text p.args, fun k => .ok (.key k)⟩
  | .queryOneValue =>
    ⟨operation, .query place p.text p.args, fun rows =>
      .ok (.key ((firstValue? rows).filter (!·.isNull)))⟩

def execution (p : Preparer) (operation : String) (op : BindOp) (place : Place) (st : Statement) :
    Except Error (Request interface Outcome) :=
  (p.prepare op st).map fun prepared => request operation place prepared st.exec

/-- Columns are read by the labels of the view; of two with one name the last one counts. -/
def rowOf (v : View) (r : ResultRow) : Row := .labelled (.plain (Entries.ofList r)) v ""

def connecting (h : Handle) : Request interface Unit := ⟨"connect", .connect h, fun _ => .ok ()⟩

def control (operation : String) (c : Call) : Request interface Unit := ⟨operation, c, fun _ => .ok ()⟩

def backend (dialect : Dialect) : Backend interface :=
  let p := Preparer.ofDialect dialect
  { Statement := Statement
    types := p.types
    policy := .snakeCase
    compileSelect := Sql.select dialect
    compileCount := Sql.count dialect
    compileWrite := Sql.write dialect
    opening := fun h n => [connecting h, control "begin" (.begin n)]
    connecting := fun h => [connecting h]
    commit := fun n => control "commit" (.commit n)
    rollback := fun n => control "rollback" (.rollback n)
    select := fun v place st => (execution p "select" .filter place st).map fun r =>
      r.map fun o => o.rows?.map (rowOf v)
    count := fun place st => (execution p "count" .filter place st).map fun r =>
      r.check fun o => Backend.counted p.types ((firstValue? o.rows?).getD (.long 0))
    insert := fun n st => (execution p "insert" .insert (.within n) st).map (·.map Outcome.key?)
    upsert := fun n st => (execution p "upsert" .upsertSet (.within n) st).map (·.map Outcome.key?)
    update := fun n st =>
      (execution p "update" .updateSet (.within n) st).map (·.map Outcome.affected)
    delete := fun n st =>
      (execution p "delete" .filter (.within n) st).map (·.map Outcome.affected) }

end Polystore.Sql
