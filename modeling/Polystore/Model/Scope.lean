import Polystore.Model.PropertyType

/-! # Scopes

What a statement is about: a view of an entity within a model. -/

namespace Polystore
set_option autoImplicit false

structure Scope where
  model : Model
  entity : Entity
  view : View

namespace Scope

def scalarType (s : Scope) (usage : PathUsage) (path : String) : Except Error String :=
  match s.model.scalarTypeId? s.entity path with
  | some id => .ok id
  | none => .error (.validation (.unknownPath path usage s.entity.name))

def source (s : Scope) : Except PlanningError String :=
  match s.entity.source? with
  | some t => .ok t
  | none => .error (.noSource s.entity.name)

end Scope
end Polystore
