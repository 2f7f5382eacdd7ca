import Polystore.Error
import Polystore.Query.Basic

/-! # Normalized filters

The filter of one execution: parameters are replaced by their values, groups lose the elements
that come to nothing, an empty group is no predicate and a group of one is its element. -/

namespace Polystore
set_option autoImplicit false

def param (params : Entries Value) (name : String) : Except PlanningError Value :=
  match params.lookup name with
  | some v => .ok v
  | none => .error (.missingParam name)

namespace Value

mutual
/-- Replaces parameters, also inside lists and maps. A replacement is not looked into again. -/
def resolve (params : Entries Value) : Value → Except PlanningError Value
  | .param name => Polystore.param params name
  | .list vs => (resolveItems params vs).map .list
  | .map es => (resolveEntries params es).map .map
  | v => .ok v
def resolveItems (params : Entries Value) : List Value → Except PlanningError (List Value)
  | [] => .ok []
  | v :: vs => do
    let w ← resolve params v
    let ws ← resolveItems params vs
    .ok (w :: ws)
def resolveEntries (params : Entries Value) :
    List (String × Value) → Except PlanningError (List (String × Value))
  | [] => .ok []
  | (k, v) :: es => do
    let w ← resolve params v
    let ws ← resolveEntries params es
    .ok ((k, w) :: ws)
end

end Value

def Condition.resolve (params : Entries Value) (c : Condition) : Except PlanningError Condition := do
  let value ← c.value.resolve params
  let lower ← c.lower.resolve params
  let upper ← c.upper.resolve params
  .ok { c with value, lower, upper }

namespace Filter

/-- The group of some elements, as far as it needs to be one. -/
def grouped (clause : Clause) : List Filter → Option Filter
  | [] => none
  | [f] => some f
  | fs => some (group clause fs)

mutual
def normalize (params : Entries Value) : Filter → Except PlanningError (Option Filter)
  | cond c => (c.resolve params).map fun c => some (cond c)
  | not f => (normalize params f).map fun r => r.map not
  | group clause fs => (normalizeAll params fs).map (grouped clause)
def normalizeAll (params : Entries Value) : List Filter → Except PlanningError (List Filter)
  | [] => .ok []
  | f :: fs => do
    let r ← normalize params f
    let rs ← normalizeAll params fs
    .ok (r.toList ++ rs)
end

end Filter

def Query.normalize (q : Query) : Except PlanningError (Option Filter) :=
  match q.filter with
  | none => .ok none
  | some f => f.normalize q.params

end Polystore
