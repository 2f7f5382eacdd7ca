import Polystore.Binding.Basic

/-! # Binder tables

Binders of several kinds of targets in one table, each for one dialect or for all. The first one
that accepts a value places it, those of the dialect before the global ones. -/

namespace Polystore
set_option autoImplicit false

/-- Kinds of targets, what each of them holds and what it is called. -/
structure Targets where
  Key : Type
  keyEq : DecidableEq Key
  Carrier : Key → Type
  name : Key → String

instance (T : Targets) : DecidableEq T.Key := T.keyEq

structure BinderEntry (T : Targets) where
  target : T.Key
  binder : Binder (T.Carrier target)

def BinderEntry.for? {T : Targets} (k : T.Key) (e : BinderEntry T) : Option (Binder (T.Carrier k)) :=
  if h : e.target = k then some (h ▸ e.binder) else none

/-- Entries in the order of registration, those of a dialect with its id. -/
structure BinderTable (T : Targets) where
  perDialect : List (String × BinderEntry T)
  shared : List (BinderEntry T)

namespace BinderTable
variable {T : Targets}

def empty : BinderTable T := ⟨[], []⟩

def register (t : BinderTable T) (dialect : String) (e : BinderEntry T) : BinderTable T :=
  ⟨t.perDialect ++ [(dialect, e)], t.shared⟩

def registerGlobal (t : BinderTable T) (e : BinderEntry T) : BinderTable T :=
  ⟨t.perDialect, t.shared ++ [e]⟩

def ofDialect (t : BinderTable T) (dialect : String) : List (BinderEntry T) :=
  (t.perDialect.filter (·.1 == dialect)).map (·.2)

/-- The binders for one kind of target, in the order in which they are asked. -/
def candidates (t : BinderTable T) (dialect : String) (k : T.Key) : List (Binder (T.Carrier k)) :=
  (t.ofDialect dialect ++ t.shared).filterMap (·.for? k)

def bind (t : BinderTable T) (dialect : String) (k : T.Key) (target : T.Carrier k)
    (ctx : BindContext) (b : Bind) (encoded : Value) : Except Error (T.Carrier k) :=
  match (t.candidates dialect k).find? (·.accepts ctx b encoded) with
  | some binder => binder.bind target ctx b encoded
  | none => .error (.binding ⟨dialect, T.name k, encoded.kind.text, b.typeId⟩)

/-- The target behind a call; without a binder for the value it stays as it was. -/
def after (t : BinderTable T) (dialect : String) (k : T.Key) (target : T.Carrier k)
    (ctx : BindContext) (b : Bind) (encoded : Value) : T.Carrier k :=
  match (t.candidates dialect k).find? (·.accepts ctx b encoded) with
  | some binder => binder.after target ctx b encoded
  | none => target

end BinderTable
end Polystore
