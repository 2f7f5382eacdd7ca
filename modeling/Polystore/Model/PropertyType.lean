import Polystore.Model.Basic

/-! # Property types

The scalar type that a dot path leads to through references, the type that values of a path are
bound with, and a memo of the answers. -/

namespace Polystore
set_option autoImplicit false

namespace Model

/-- Follows references up to the last segment, which must name a scalar field. -/
def scalarAt? (m : Model) (e : Entity) : List String → Option String
  | [] => none
  | [leaf] =>
    match e.fieldType? leaf with
    | some (.scalar id) => some id
    | _ => none
  | step :: rest =>
    match e.fieldType? step with
    | some (.ref target) =>
      match m.entities.lookup target with
      | some e => m.scalarAt? e rest
      | none => none
    | _ => none

def scalarTypeId? (m : Model) (root : Entity) (path : String) : Option String :=
  if Text.isBlankText path then none else m.scalarAt? root (Text.split '.' path)

/-- The scalar type of a path, else the type of the field it names, else `json`. -/
def bindTypeId (m : Model) (root : Entity) (path : String) : String :=
  match m.scalarTypeId? root path with
  | some id => id
  | none =>
    match root.field? path with
    | some f => f.type.typeId
    | none => "json"

end Model

/-! ## Memo -/

/-- Answers by the name of the root and the path. -/
structure PropertyMemo where
  model : Model
  answers : List ((String × String) × Option String)

namespace PropertyMemo

def ofModel (m : Model) : PropertyMemo := ⟨m, []⟩

def scalarTypeId? (p : PropertyMemo) (root : Entity) (path : String) :
    Option String × PropertyMemo :=
  match p.answers.lookup (root.name, path) with
  | some r => (r, p)
  | none =>
    let r := p.model.scalarTypeId? root path
    (r, ⟨p.model, ((root.name, path), r) :: p.answers⟩)

def bindTypeId (p : PropertyMemo) (root : Entity) (path : String) : String × PropertyMemo :=
  match p.scalarTypeId? root path with
  | (some id, p) => (id, p)
  | (none, p) =>
    match root.field? path with
    | some f => (f.type.typeId, p)
    | none => ("json", p)

end PropertyMemo
end Polystore
