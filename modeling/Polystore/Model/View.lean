import Polystore.Entries
import Polystore.Json.Basic
import Polystore.Text.SnakeCase

/-! # Views

A view maps property paths of an entity to columns or document paths, and may bring a native base
query of its own. -/

namespace Polystore
set_option autoImplicit false

inductive MappingMode where
  | structured
  /-- A nested object that is stored as one opaque value. -/
  | blob
deriving DecidableEq, Repr

def MappingMode.text : MappingMode → String
  | structured => "structured"
  | blob => "blob"

/-- The mapping of one property path: a column, or a target with a label, a mode and mappings of
the fields of a referenced entity. -/
inductive Mapping where
  | direct (target : String)
  | detailed (ref column label : Option String) (mode : Option MappingMode)
      (fields : List (String × Mapping))

namespace Mapping

/-- The column or document path; `ref` wins over `column`, and a blank one counts as none. -/
def target? (m : Mapping) : Option String :=
  (match m with
    | direct c => some c
    | detailed ref column _ _ _ => ref.or column).filter (!Text.isBlankText ·)

def fields : Mapping → Entries Mapping
  | direct _ => []
  | detailed _ _ _ _ fields => fields

def nested? (m : Mapping) : Option (Entries Mapping) :=
  if m.fields.isEmpty then none else some m.fields

def label? : Mapping → Option String
  | direct _ => none
  | detailed _ _ label _ _ => label

def mode : Mapping → MappingMode
  | direct _ => .structured
  | detailed _ _ _ mode _ => mode.getD .structured

mutual
def same : Mapping → Mapping → Bool
  | direct a, direct b => a == b
  | detailed r c l m fs, detailed r' c' l' m' fs' =>
    r == r' && c == c' && l == l' && m == m' && sameFields fs fs'
  | _, _ => false
def sameFields : List (String × Mapping) → List (String × Mapping) → Bool
  | [], [] => true
  | (k, a) :: as, (l, b) :: bs => k == l && same a b && sameFields as bs
  | _, _ => false
end

end Mapping

/-- A base query in the store's own form: texts for a relational store, documents and stages for a
document store. -/
structure NativeQuery where
  sql : Option Json
  projection : Option Json
  /-- The schema placeholder stands for the namespace of the engine's handle. -/
  schema : Bool

namespace NativeQuery

def sqlText? (n : NativeQuery) : Option String := n.sql.bind Json.str?

def projectionText? (n : NativeQuery) : Option String :=
  (n.projection.bind Json.str?).filter (!Text.isBlankText ·)

def sameJson : Option Json → Option Json → Bool
  | none, none => true
  | some a, some b => a.same b
  | _, _ => false

def same (a b : NativeQuery) : Bool :=
  sameJson a.sql b.sql && sameJson a.projection b.projection && a.schema == b.schema

end NativeQuery

structure View where
  id : String
  mapping : Entries Mapping
  native : Option NativeQuery

/-- The column of a path without a mapping: each segment in snake case. -/
def defaultColumn (path : String) : String :=
  ".".intercalate ((Text.split '.' path).map Text.snakeCase)

namespace View

def empty (id : String) : View := ⟨id, [], none⟩

/-- The mapped target of a path: under the path itself, or of a child under its parent. -/
def explicitRef? (v : View) (path : String) : Option String :=
  match (v.mapping.lookup path).bind Mapping.target? with
  | some t => some t
  | none => do
    let (parent, child) ← Text.splitOnce? '.' path
    let m ← v.mapping.lookup parent
    let c ← m.fields.lookup child
    c.target?

def refPath (v : View) (path : String) : String := (v.explicitRef? path).getD (defaultColumn path)

def label? (v : View) (path : String) : Option String := (v.mapping.lookup path).bind Mapping.label?

def mode (v : View) (path : String) : MappingMode :=
  ((v.mapping.lookup path).map Mapping.mode).getD .structured

/-- The labels that a mapping of `path` declares, with those of its children. -/
def labelsAt (path : String) (m : Mapping) : List (String × String) :=
  (m.label?.map fun l => (path, l)).toList ++
    m.fields.filterMap fun (child, c) => c.label?.map fun l => (path ++ "." ++ child, l)

def labels (v : View) : Entries String :=
  Entries.ofList (v.mapping.flatMap fun (path, m) => labelsAt path m)

def same (a b : View) : Bool :=
  a.id == b.id && Mapping.sameFields a.mapping b.mapping &&
    match a.native, b.native with
    | none, none => true
    | some m, some n => m.same n
    | _, _ => false

end View

/-- How a path without a mapping becomes a column. -/
inductive PathPolicy where
  | snakeCase
  | explicit
deriving DecidableEq, Repr

def PathPolicy.column (p : PathPolicy) (v : View) (path : String) : String :=
  match p with
  | snakeCase => v.refPath path
  | explicit => (v.explicitRef? path).getD path

end Polystore
