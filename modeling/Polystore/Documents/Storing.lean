import Polystore.Binding.Store
import Polystore.Types.Table

/-! # Stored values

What a value becomes in a document: it is encoded by its type and put at its path by a binder.
Filters compare with the same values that writes store. -/

namespace Polystore.Documents
set_option autoImplicit false

def types : TypeTable := TypeTable.ofDialect TypeTable.documentDialect

def place (op : BindOp) (path : String) (b : Bind) (d : Document) : Except Error Document := do
  let encoded ← lift .codec (types.encode b.typeId b.value)
  documentBinders.bind TypeTable.documentDialect StoreTarget.document d ⟨op, .path path⟩ b encoded

def stored (op : BindOp) (path : String) (b : Bind) : Except Error Value :=
  (place op path b []).map fun d => (Document.at? d path).getD .null

def storedAll (op : BindOp) (path typeId : String) : List Value → Except Error (List Value)
  | [] => .ok []
  | v :: vs => do
    let w ← stored op path ⟨v, typeId⟩
    let ws ← storedAll op path typeId vs
    .ok (w :: ws)

end Polystore.Documents
