import Polystore.Error
import Polystore.Value.Basic

/-! # Binders

A binder places an encoded value into a target: a slot of a parameter list, or a path of a
document. -/

namespace Polystore
set_option autoImplicit false

/-- A value with the id of the user type it is bound as. -/
structure Bind where
  value : Value
  typeId : String

/-- The part of a statement that a value is bound into. -/
inductive BindOp where
  | filter | insert | updateSet | upsertSet | upsertFilter
deriving DecidableEq, Repr

def BindOp.text : BindOp → String
  | filter => "FILTER"
  | insert => "INSERT"
  | updateSet => "UPDATE_SET"
  | upsertSet => "UPSERT_SET"
  | upsertFilter => "UPSERT_FILTER"

def BindOp.all : List BindOp := [filter, insert, updateSet, upsertSet, upsertFilter]

def BindOp.ofText? (s : String) : Option BindOp := all.find? (·.text == s)

/-- A place in a target: a parameter counted from one, or a dot path. -/
inductive BindPlace where
  | position (n : Nat)
  | path (p : String)
deriving DecidableEq, Repr

structure BindContext where
  op : BindOp
  place : BindPlace
deriving DecidableEq, Repr

namespace BindContext

def position? (ctx : BindContext) : Option Nat :=
  match ctx.place with
  | .position n => some n
  | .path _ => none

def path? (ctx : BindContext) : Option String :=
  match ctx.place with
  | .path p => some p
  | .position _ => none

end BindContext

/-- Puts values into targets of type `τ`. Without a kind it takes values of every kind. -/
structure Binder (τ : Type) where
  kind : Option ValueKind
  supports : BindContext → Bind → Value → Bool
  bind : τ → BindContext → Bind → Value → Except Error τ
  /-- The target behind a call that fails: as it was, unless the binder had begun to write. -/
  leaves : τ → BindContext → Bind → Value → τ := fun target _ _ _ => target

def Binder.accepts {τ : Type} (b : Binder τ) (ctx : BindContext) (bind : Bind) (v : Value) : Bool :=
  b.kind.all (· == v.kind) && b.supports ctx bind v

/-- The target behind a call. -/
def Binder.after {τ : Type} (b : Binder τ) (target : τ) (ctx : BindContext) (bind : Bind)
    (v : Value) : τ :=
  match b.bind target ctx bind v with
  | .ok written => written
  | .error _ => b.leaves target ctx bind v

def elementTypeId? (typeId : String) : Option String :=
  let t := Text.trim typeId
  match ["list<", "set<", "array<"].findSome? (Text.after? · t) with
  | some r => (Text.before? ">" r).map Text.trim
  | none => none

end Polystore
