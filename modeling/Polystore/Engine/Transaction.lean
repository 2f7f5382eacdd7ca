import Polystore.Engine.Backend
import Polystore.Engine.Propagation
import Polystore.Write.Planner

/-! # Engines and transactions

An engine works on one store. A context belongs to one engine and may hold an open transaction of
it; to any other engine it holds none. Work in a new transaction gets a context of its own, so that
of the caller stays as it is. -/

namespace Polystore
set_option autoImplicit false

structure Engine {I : Interface} (b : Backend I) where
  id : Nat
  handle : Handle
  model : Model
  planner : Planner
  validation : Entity → Query → Option Filter → Except ValidationError Unit
  propagation : Propagation

structure Context where
  owner : Nat
  tx : Option Nat
deriving DecidableEq, Repr

/-- The transaction that an engine finds in a context. -/
def Context.txOf? (c : Context) (engine : Nat) : Option Nat :=
  if c.owner == engine then c.tx else none

namespace Engine
variable {I : Interface} {b : Backend I} {d : Driver I} {ε α : Type}

def context (e : Engine b) : Context := ⟨e.id, none⟩

/-- How a unit of work comes to its transaction. -/
inductive Admission where
  | join
  | fresh
  | refuse (why : TransactionError)

def admission (p : Propagation) (active : Bool) : Admission :=
  match p, active with
  | .required, true => .join
  | .required, false => .fresh
  | .nested, true => .join
  | .nested, false => .fresh
  | .supports, _ => .join
  | .mandatory, true => .join
  | .mandatory, false => .refuse .noActiveTransaction
  | .requiresNew, _ => .fresh
  | .never, true => .refuse .activeTransaction
  | .never, false => .join

/-- Runs work in a transaction of its own, which is committed if the work succeeds and rolled back
if it fails. `raise` says how a failure of the transaction itself is told, given what the work came
to; a failing rollback is not told, as the work has failed already. -/
def inNew (e : Engine b) (raise : Option α → Error → ε) (work : Context → Run d ε α) :
    Run d ε α := fun w =>
  match b.begin e.handle w with
  | (.error err, w) => (.error (raise none err), w)
  | (.ok tx, w) =>
    match work ⟨e.id, some tx⟩ w with
    | (.ok a, w) =>
      match (b.commit tx).send w with
      | (.ok (), w) => (.ok a, w)
      | (.error err, w) => (.error (raise (some a) err), w)
    | (.error err, w) => (.error err, ((b.rollback tx).send w).2)

/-- Runs work under a propagation. -/
def inTx (e : Engine b) (raise : Option α → Error → ε) (c : Context) (p : Propagation)
    (work : Context → Run d ε α) : Run d ε α :=
  match admission p (c.txOf? e.id).isSome with
  | .join => work c
  | .fresh => e.inNew raise work
  | .refuse why => Run.fail (raise none (.transaction why))

/-- Writes in the transaction of a context, or in one of its own. -/
def writing (e : Engine b) (c : Context) (f : Nat → Run d Error α) : Run d Error α :=
  e.inTx (fun _ err => err) c .required fun c =>
    match c.txOf? e.id with
    | some tx => f tx
    | none => Run.fail (.transaction .noActiveTransaction)

end Engine
end Polystore
