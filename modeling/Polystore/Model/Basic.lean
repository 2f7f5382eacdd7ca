import Polystore.Model.Entity

/-! # Models

The entities of an application by name, and the owner of each view. -/

namespace Polystore
set_option autoImplicit false

structure Model where
  entities : Entries Entity
  owners : Entries String

namespace Model

def empty : Model := ⟨[], []⟩

/-- An entity takes the place of an earlier one of its name and owns all its view ids. -/
def add (m : Model) (e : Entity) : Model :=
  ⟨Entries.insert e.name e m.entities,
    e.views.foldl (fun owners v => Entries.insert v.1 e.name owners) m.owners⟩

def addAll : Model → List Entity → Except ModelError Model
  | m, [] => .ok m
  | m, e :: es =>
    match e.check with
    | .error err => .error err
    | .ok () => addAll (m.add e) es

def ofEntities (es : List Entity) : Except ModelError Model := addAll empty es

def entity (m : Model) (name : String) : Except ModelError Entity :=
  match m.entities.lookup name with
  | some e => .ok e
  | none => .error (.unknownEntity name)

def entityForView (m : Model) (id : String) : Except ModelError Entity :=
  match m.owners.lookup id with
  | some owner => m.entity owner
  | none => .error (.unknownView id)

def view (m : Model) (id : String) : Except ModelError View :=
  match m.entityForView id with
  | .error e => .error e
  | .ok e =>
    match e.views.lookup id with
    | some v => .ok v
    | none => .error (.unknownView id)

def allEntities (m : Model) : List Entity := m.entities.map (·.2)

def allViews (m : Model) : List View := m.allEntities.flatMap fun e => e.views.map (·.2)

end Model
end Polystore
