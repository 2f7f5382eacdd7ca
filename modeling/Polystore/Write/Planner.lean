import Polystore.Model.Scope
import Polystore.Payload.Capability
import Polystore.Query.Build
import Polystore.Write.Basic

/-! # Planning writes

A payload becomes columns. A field is written if it has a value or is explicitly null; a reference
is written through the nested mappings of its view, one column for each child with a value. Keys
and the fields that bind a row to its tenant are written by inserts alone. -/

namespace Polystore
set_option autoImplicit false

structure Planner where
  policy : PathPolicy
  /-- The governance keys that bind a row to its tenant. -/
  boundaries : List String
  capabilities : Capabilities

namespace Planner

/-- Takes governance keys without the blanks around them; blank ones are none. -/
def withBoundaries (p : Planner) (keys : List String) : Planner :=
  { p with boundaries := keys.filterMap Text.nonBlank? }

def isGoverned (p : Planner) (f : Field) : Bool :=
  f.governanceKeys.any p.boundaries.contains

def column (p : Planner) (s : Scope) (field : String) : String := p.policy.column s.view field

def keyColumns (p : Planner) (s : Scope) : List String := s.entity.keyFields.map (p.column s)

def governedColumns (p : Planner) (s : Scope) : List String :=
  (s.entity.fields.filter fun f => p.isGoverned f.2).map fun f => p.column s f.1

/-! ## Columns of a payload -/

/-- Fields without a type are bound as JSON. -/
def bindFor (f : Option Field) (v : Value) : Bind :=
  ⟨v, match f with
    | some f => f.type.typeId
    | none => "json"⟩

def fieldColumn (p : Planner) (s : Scope) (payload : Payload) (name : String) (f : Field) :
    List ColumnBind :=
  let v := payload.get name
  if v.isNull && !payload.isExplicitNull name then []
  else [⟨p.column s name, bindFor (some f) v⟩]

def childColumn (target : Entity) (child : Payload) (name : String) (m : Mapping) :
    Option ColumnBind :=
  match m.target? with
  | none => none
  | some column =>
    let v := child.get name
    if v.isNull then none else some ⟨column, bindFor (target.field? name) v⟩

def nestedColumns (p : Planner) (s : Scope) (payload : Payload) (name target : String) :
    Except Error (List ColumnBind) :=
  match (s.view.mapping.lookup name).bind Mapping.nested?, payload.child? name with
  | some children, some child => do
    let e ← lift .model (s.model.entity target)
    lift .planning (p.capabilities.need .accessor e)
    .ok (children.filterMap fun (childName, m) => childColumn e child childName m)
  | _, _ => .ok []

def columnsOf (p : Planner) (s : Scope) (payload : Payload) (name : String) (f : Field) :
    Except Error (List ColumnBind) :=
  match f.type with
  | .ref target => p.nestedColumns s payload name target
  | _ => .ok (p.fieldColumn s payload name f)

def isFixed (p : Planner) (f : Field) : Bool := f.key || p.isGoverned f

def columnsOfAll (p : Planner) (s : Scope) (payload : Payload) :
    List (String × Field) → Except Error (List ColumnBind)
  | [] => .ok []
  | (name, f) :: fs => do
    let cs ← p.columnsOf s payload name f
    let ds ← p.columnsOfAll s payload fs
    .ok (cs ++ ds)

def insertColumns (p : Planner) (s : Scope) (payload : Payload) : Except Error (List ColumnBind) := do
  lift .planning (p.capabilities.need .accessor s.entity)
  p.columnsOfAll s payload s.entity.fields

def updateColumns (p : Planner) (s : Scope) (payload : Payload) : Except Error (List ColumnBind) := do
  lift .planning (p.capabilities.need .accessor s.entity)
  p.columnsOfAll s payload (s.entity.fields.filter fun f => !p.isFixed f.2)

/-! ## Writes -/

/-- With `returning` the key columns are asked for. -/
def insert (p : Planner) (s : Scope) (payload : Payload) (returning : Bool) :
    Except Error Insert := do
  let table ← lift .planning s.source
  let columns ← p.insertColumns s payload
  .ok ⟨table, columns, if returning then p.keyColumns s else []⟩

/-- The field that an update by key goes by: `id` if the entity has no key. -/
def keyField (e : Entity) : Except PlanningError String :=
  match e.keyFields with
  | [] => .ok "id"
  | [k] => .ok k
  | _ => .error (.compositeKey e.name)

def updateById (p : Planner) (s : Scope) (payload : Payload) : Except Error Update := do
  let table ← lift .planning s.source
  let key ← lift .planning (keyField s.entity)
  let sets ← p.updateColumns s payload
  .ok ⟨table, sets, some (Filter.eq key (payload.get key))⟩

def update (p : Planner) (s : Scope) (payload : Payload) (filter : Option Filter) :
    Except Error Update := do
  let table ← lift .planning s.source
  let sets ← p.updateColumns s payload
  .ok ⟨table, sets, filter⟩

def delete (s : Scope) (filter : Option Filter) : Except Error Delete := do
  let table ← lift .planning s.source
  .ok ⟨table, filter⟩

/-- On a conflict of keys the columns that are neither keys nor governed are updated. -/
def upsert (p : Planner) (s : Scope) (payload : Payload) (returning : Bool) :
    Except Error Upsert := do
  let w ← p.insert s payload returning
  let keys := p.keyColumns s
  let governed := p.governedColumns s
  .ok ⟨w, keys, w.columnNames.filter fun c => !(keys.contains c || governed.contains c)⟩

end Planner
end Polystore
