import Polystore.Error
import Polystore.Value.Path

/-! # Payloads

What callers hand over to be written: documents, or values of a type that the library does not
know, which show no fields. -/

namespace Polystore
set_option autoImplicit false

inductive Payload where
  | document (d : Document)
  | foreign

namespace Payload

def document? : Payload → Option Document
  | document d => some d
  | foreign => none

def find? (p : Payload) (field : String) : Option Value :=
  p.document?.bind fun d => d.lookup field

/-- The value of a field; one that is not there reads as null. -/
def get (p : Payload) (field : String) : Value := (p.find? field).getD .null

/-- Whether a null is to be written, rather than nothing. -/
def isExplicitNull (p : Payload) (field : String) : Bool :=
  match p.find? field with
  | some .null => true
  | _ => false

def child? (p : Payload) (field : String) : Option Payload :=
  match p.find? field with
  | some (.map m) => some (document m)
  | _ => none

def set (p : Payload) (entity field : String) (v : Value) : Except PlanningError Payload :=
  match p with
  | document d => .ok (document (d.setPath field v))
  | foreign => .error (.payloadType entity)

end Payload
end Polystore
