import Polystore.Model.PropertyType
import Polystore.Query.Basic

/-! # Query validation

Every path of the filter, the sorting and the grouping must lead to a scalar field. -/

namespace Polystore
set_option autoImplicit false

def requireScalar (m : Model) (e : Entity) (usage : PathUsage) (path : String) :
    Except ValidationError Unit :=
  if Text.isBlankText path then .error (.blankPath usage e.name)
  else if (m.scalarTypeId? e path).isSome then .ok ()
  else .error (.unknownPath path usage e.name)

def requireScalars (m : Model) (e : Entity) (usage : PathUsage) :
    List String → Except ValidationError Unit
  | [] => .ok ()
  | p :: ps => do
    requireScalar m e usage p
    requireScalars m e usage ps

/-- The first fault of the filter, else of the sorting, else of the grouping. -/
def validate (m : Model) (e : Entity) (q : Query) (filter : Option Filter) :
    Except ValidationError Unit := do
  requireScalars m e .filter ((filter.map Filter.conditions).getD [] |>.map (·.property))
  requireScalars m e .sort (q.sort.map (·.field))
  requireScalars m e .groupBy q.groupBy

end Polystore
