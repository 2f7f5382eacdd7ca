import Polystore.Model.Scope
import Polystore.Engine.Driver
import Polystore.Engine.Handle
import Polystore.Row
import Polystore.Write.Basic

/-! # Backends

A kind of store: how reads and writes become its statements, and how its driver runs them. -/

namespace Polystore
set_option autoImplicit false

/-- Where a statement runs: in an open transaction or by itself. Both are known by the number of
calls before the one that opened them. -/
inductive Place where
  | within (tx : Nat)
  | alone (connection : Nat)
deriving DecidableEq, Repr

structure Backend (I : Interface) where
  Statement : Type
  types : TypeTable
  /-- How the paths of written fields become columns. -/
  policy : PathPolicy
  compileSelect : Scope → Option Filter → List SortField → Page → Entries Value →
    Except Error Statement
  compileCount : Scope → Option Filter → Entries Value → Except Error Statement
  compileWrite : Scope → Write → Except Error Statement
  /-- Opens a transaction that is known by a number. -/
  opening : Handle → Nat → List (Request I Unit)
  /-- Comes before a read that runs by itself. -/
  connecting : Handle → List (Request I Unit)
  commit : Nat → Request I Unit
  rollback : Nat → Request I Unit
  select : View → Place → Statement → Except Error (Request I (List Row))
  count : Place → Statement → Except Error (Request I UInt64)
  /-- Gives the key of the new row, if there is one to tell. -/
  insert : Nat → Statement → Except Error (Request I (Option Value))
  upsert : Nat → Statement → Except Error (Request I (Option Value))
  /-- Gives the number of rows written. -/
  update : Nat → Statement → Except Error (Request I UInt64)
  delete : Nat → Statement → Except Error (Request I UInt64)

namespace Backend
variable {I : Interface} {d : Driver I} {α : Type}

def begin (b : Backend I) (h : Handle) : Run d Error Nat := do
  let n ← Run.position
  Request.sendAll (b.opening h n)
  Run.done n

/-- Reads in a transaction if there is one, else by itself. -/
def read (b : Backend I) (h : Handle) (tx : Option Nat)
    (request : Place → Except Error (Request I α)) : Run d Error α :=
  match tx with
  | some n => Request.sendIf (request (.within n))
  | none => do
    let n ← Run.position
    Request.sendAll (b.connecting h)
    Request.sendIf (request (.alone n))

/-- The number that a store has counted. -/
def counted (types : TypeTable) (v : Value) : Except Error UInt64 :=
  (lift .codec (types.decode "long" v)).map fun n =>
    UInt64.ofNat ((n.int64?.map fun n => n.toInt.toNat).getD 0)

end Backend

/-- Gives rows to a sink one after the other, until it refuses one. -/
def feed {σ : Type} (sink : σ → Row → Except Error σ) : σ → List Row → σ × Except Error Unit
  | s, [] => (s, .ok ())
  | s, r :: rs =>
    match sink s r with
    | .ok s => feed sink s rs
    | .error e => (s, .error e)

end Polystore
