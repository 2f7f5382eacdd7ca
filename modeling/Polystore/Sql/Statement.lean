import Polystore.Binding.Basic
import Polystore.Sql.Token

/-! # SQL statements -/

namespace Polystore.Sql
set_option autoImplicit false

/-- What running a statement gives. -/
inductive ExecKind where
  | query
  | update
  /-- A number of affected rows and the generated keys. -/
  | updateGeneratedKeys
  /-- Rows, of which the first column of the first one counts. -/
  | queryOneValue
deriving DecidableEq, Repr

def ExecKind.text : ExecKind → String
  | query => "QUERY"
  | update => "UPDATE"
  | updateGeneratedKeys => "UPDATE_GENERATED_KEYS"
  | queryOneValue => "QUERY_ONE_VALUE"

def ExecKind.all : List ExecKind := [query, update, updateGeneratedKeys, queryOneValue]

def ExecKind.ofText? (s : String) : Option ExecKind := all.find? (·.text == s)

/-- Tokens with one bind for each of their markers, in the order of the markers. -/
structure Statement where
  tokens : Tokens
  binds : List Bind
  exec : ExecKind

namespace Statement

def text (s : Statement) : String := s.tokens.text

/-- A statement that is given by its text. -/
def ofText (text : String) (binds : List Bind) (exec : ExecKind) : Statement :=
  ⟨[.raw text], binds, exec⟩

end Statement

end Polystore.Sql
