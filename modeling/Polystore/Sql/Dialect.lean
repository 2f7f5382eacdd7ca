import Polystore.Text.Basic

/-! # SQL dialects -/

namespace Polystore.Sql
set_option autoImplicit false

inductive Dialect where
  /-- Standard syntax alone: no array or JSON operators, no upsert. -/
  | ansi
  | postgres
deriving DecidableEq, Repr

namespace Dialect

/-- The name, which is also the id that user types and binders are found by. -/
def name : Dialect → String
  | ansi => "ansi"
  | postgres => "postgres"

def parse (s : String) : Except String Dialect :=
  let name := Text.lowerAscii (Text.trim s)
  if name == "ansi" then .ok ansi
  else if name == "postgres" || name == "postgresql" then .ok postgres
  else .error s!"unknown SQL dialect: {name}"

/-- The placeholder of a parameter counted from one. -/
def placeholder : Dialect → Nat → List Char
  | ansi, _ => ['?']
  | postgres, n => '$' :: Nat.toDigits 10 n

end Dialect

/-! ## Quoting -/

/-- Writes the quote character twice wherever it occurs. -/
def doubled (q : Char) : List Char → List Char
  | [] => []
  | c :: r => if c = q then q :: q :: doubled q r else c :: doubled q r

def quotedBy (q : Char) (cs : List Char) : List Char := q :: doubled q cs ++ [q]

/-- Identifiers stand in double quotes, string literals in single ones. -/
def quoteIdentifier (s : String) : List Char := quotedBy '"' s.toList

def quoteString (s : String) : List Char := quotedBy '\'' s.toList

def boolText (b : Bool) : String := if b then "TRUE" else "FALSE"

end Polystore.Sql
