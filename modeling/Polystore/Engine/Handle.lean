import Polystore.Model.View
import Polystore.Error

/-! # Handles

Which store an engine works on, and the schema that takes the place of the placeholder in native
queries. -/

namespace Polystore
set_option autoImplicit false

structure Handle where
  id : String
  schema : Option String
  multiTenant : Bool

namespace Handle

def ofId (id : String) : Handle := ⟨id, none, false⟩

def schemaMark : String := "\x7bschema\x7d"

def schemaName? (h : Handle) : Option String := h.schema.bind Text.nonBlank?

end Handle

namespace NativeQuery

def withSchema (name : String) (q : NativeQuery) : NativeQuery :=
  let put := Json.mapTexts (Text.replace Handle.schemaMark name)
  { q with sql := q.sql.map put, projection := q.projection.map put }

end NativeQuery

namespace View

/-- The view with the schema of a handle in its native query, if it asks for one. -/
def inSchema (h : Handle) (v : View) : Except PlanningError View :=
  match v.native with
  | none => .ok v
  | some q =>
    if q.schema then
      match h.schemaName? with
      | some name => .ok { v with native := some (q.withSchema name) }
      | none => .error (.missingNamespace v.id)
    else .ok v

end View

/-- The entity of an operation and the view that it goes through. -/
structure Target where
  entity : String
  view : String
deriving DecidableEq, Repr

end Polystore
