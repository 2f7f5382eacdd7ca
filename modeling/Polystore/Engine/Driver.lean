import Polystore.Error

/-! # Drivers

A driver takes calls one after the other and answers each of them. What is called, and in which
order, is all that a store sees of the library. Calls are kept: one that was made stays made, also
if what it was made for fails. -/

namespace Polystore
set_option autoImplicit false

/-- The calls that drivers of a kind take, and the type of the answer to each. -/
structure Interface where
  Call : Type
  Reply : Call → Type

/-- A failure is told in the words of the driver. -/
structure Driver (I : Interface) where
  State : Type
  answer : State → (c : I.Call) → Except String (I.Reply c) × State

/-- A driver at work, with the calls it got, the first one in front. -/
structure History {I : Interface} (d : Driver I) where
  state : d.State
  calls : List I.Call

/-- What may call a driver and may fail. -/
def Run {I : Interface} (d : Driver I) (ε α : Type) : Type := History d → Except ε α × History d

namespace Run
variable {I : Interface} {d : Driver I} {ε α β : Type}

def done (a : α) : Run d ε α := fun w => (.ok a, w)

def fail (e : ε) : Run d ε α := fun w => (.error e, w)

def ofExcept (r : Except ε α) : Run d ε α := fun w => (r, w)

def andThen (m : Run d ε α) (f : α → Run d ε β) : Run d ε β := fun w =>
  match m w with
  | (.ok a, w) => f a w
  | (.error e, w) => (.error e, w)

instance : Monad (Run d ε) where
  pure := done
  bind := andThen

def position : Run d ε Nat := fun w => (.ok w.calls.length, w)

/-- Runs once for each element, until the first failure. -/
def forAll (f : α → Run d ε β) : List α → Run d ε (List β)
  | [] => done []
  | a :: as => do
    let b ← f a
    let bs ← forAll f as
    done (b :: bs)

end Run

/-- A call, what its answer means, and the operation that a failure is reported for. -/
structure Request (I : Interface) (α : Type) where
  operation : String
  call : I.Call
  read : I.Reply call → Except Error α

namespace Request
variable {I : Interface} {d : Driver I} {α β : Type}

def map (f : α → β) (r : Request I α) : Request I β := ⟨r.operation, r.call, fun x => (r.read x).map f⟩

def check (f : α → Except Error β) (r : Request I α) : Request I β :=
  ⟨r.operation, r.call, fun x => (r.read x).bind f⟩

def send (r : Request I α) : Run d Error α := fun w =>
  match d.answer w.state r.call with
  | (.ok x, s) => (r.read x, ⟨s, w.calls ++ [r.call]⟩)
  | (.error cause, s) => (.error (.backend ⟨r.operation, cause⟩), ⟨s, w.calls ++ [r.call]⟩)

/-- Sends one request after the other, until the first failure. -/
def sendAll : List (Request I Unit) → Run d Error Unit
  | [] => Run.done ()
  | r :: rs => do
    r.send
    sendAll rs

/-- Nothing is called for what could not be made a request. -/
def sendIf (r : Except Error (Request I α)) : Run d Error α :=
  match r with
  | .ok r => r.send
  | .error e => Run.fail e

end Request
end Polystore
