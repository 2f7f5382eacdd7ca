import Polystore.Model.Basic
import Polystore.Payload.Basic
import Polystore.Row

/-! # Capabilities

What is known of the payloads of an entity: how their fields are read, how keys are written back,
and how they are made from rows. An operation fails when the one that it needs is not registered. -/

namespace Polystore
set_option autoImplicit false

inductive Capability where
  | accessor | mutator | decoder
deriving DecidableEq, Repr

def Capability.text : Capability → String
  | accessor => "accessor"
  | mutator => "mutator"
  | decoder => "row decoder"

def Capability.all : List Capability := [accessor, mutator, decoder]

abbrev Capabilities := Entries (List Capability)

namespace Capabilities

/-- All of them for every entity of a model. -/
def ofModel (m : Model) : Capabilities :=
  Entries.ofList (m.allEntities.map fun e => (e.name, Capability.all))

def has (h : Capabilities) (k : Capability) (e : Entity) : Bool := ((h.lookup e.name).getD []).contains k

def need (h : Capabilities) (k : Capability) (e : Entity) : Except PlanningError Unit :=
  if h.has k e then .ok () else .error (.missingCapability k.text e.name)

end Capabilities

/-! ## Documents from rows -/

namespace Entity

/-- Reads the fields that the row has, each by its type. -/
def readFields (r : Row) (types : TypeTable) :
    List (String × Field) → Except CodecError Document
  | [] => .ok []
  | (name, f) :: fs => do
    if r.has name then
      let v ← r.decode types name f.type.typeId
      let d ← readFields r types fs
      .ok ((name, v) :: d)
    else readFields r types fs

def isRef : TypeRef → Bool
  | .ref _ => true
  | _ => false

/-- The fields of a referenced entity that a nested document can hold. -/
def childFields (m : Model) (target : String) : List (String × Field) :=
  match m.entities.lookup target with
  | some e => e.fields.filter fun f => !isRef f.2.type
  | none => []

/-- The nested document of a reference; none if the row has nothing of it. -/
def readNested (m : Model) (r : Row) (types : TypeTable) (name target : String) :
    Except CodecError (Option Document) :=
  match r.object? types (name ++ ".") with
  | none => .ok none
  | some child => (readFields child types (childFields m target)).map fun d =>
    if d.isEmpty then none else some (Entries.ofList d)

def readField (m : Model) (r : Row) (types : TypeTable) (name : String) (f : Field) :
    Except CodecError (Option Value) :=
  match f.type with
  | .ref target => (readNested m r types name target).map fun d => d.map .map
  | t => if r.has name then (r.decode types name t.typeId).map some else .ok none

/-- The document of a row; fields that the row does not have are left out. -/
def readAll (m : Model) (r : Row) (types : TypeTable) :
    List (String × Field) → Document → Except CodecError Document
  | [], d => .ok d
  | (name, f) :: fs, d => do
    match ← readField m r types name f with
    | some v => readAll m r types fs (Entries.insert name v d)
    | none => readAll m r types fs d

def read (e : Entity) (m : Model) (types : TypeTable) (r : Row) : Except CodecError Document :=
  readAll m r types e.fields []

end Entity
end Polystore
