import Polystore.Binding.Store
import Polystore.Types.Table
import Polystore.Sql.Marker
import Polystore.Sql.Statement

/-! # Prepared statements

The text with the placeholders of its dialect, and one encoded argument for each of them. -/

namespace Polystore.Sql
set_option autoImplicit false

structure Prepared where
  text : String
  args : List SqlArg

/-- What statements of a dialect are prepared with. -/
structure Preparer where
  dialect : Dialect
  types : TypeTable
  binders : StoreBinders

def Preparer.ofDialect (d : Dialect) : Preparer := ⟨d, TypeTable.ofDialect d.name, defaultBinders⟩

namespace Preparer

/-- Encodes and places the binds from position `n + 1` on. -/
def place (p : Preparer) (op : BindOp) (n : Nat) (slots : BoundParams) :
    List Bind → Except Error BoundParams
  | [] => .ok slots
  | b :: bs => do
    let encoded ← lift .codec (p.types.encode b.typeId b.value)
    let slots ← p.binders.bind p.dialect.name StoreTarget.params slots ⟨op, .position (n + 1)⟩ b encoded
    p.place op (n + 1) slots bs

def prepare (p : Preparer) (op : BindOp) (st : Statement) : Except Error Prepared := do
  let markers := (scan st.text).length
  if markers ≠ st.binds.length then
    throw (.planning (.bindCountMismatch markers st.binds.length))
  let slots ← p.place op 0 [] st.binds
  return ⟨numberMarkers p.dialect.placeholder st.text, BoundParams.args slots⟩

end Preparer
end Polystore.Sql
