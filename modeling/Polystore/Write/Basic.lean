import Polystore.Binding.Basic
import Polystore.Query.Basic

/-! # Planned writes

What is to be written, in columns of a table or paths of a collection. -/

namespace Polystore
set_option autoImplicit false

structure ColumnBind where
  column : String
  bind : Bind

structure Insert where
  table : String
  columns : List ColumnBind
  returning : List String

structure Update where
  table : String
  sets : List ColumnBind
  filter : Option Filter

structure Delete where
  table : String
  filter : Option Filter

/-- An insert that updates some columns of a row with the same values in the conflict columns. -/
structure Upsert where
  insert : Insert
  conflict : List String
  updates : List String

inductive Write where
  | insert (w : Insert)
  | update (w : Update)
  | delete (w : Delete)
  | upsert (w : Upsert)

namespace Insert

def columnNames (w : Insert) : List String := w.columns.map (·.column)

def column? (w : Insert) (name : String) : Option ColumnBind :=
  w.columns.find? (·.column == name)

end Insert
end Polystore
