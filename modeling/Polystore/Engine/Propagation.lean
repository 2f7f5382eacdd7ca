import Polystore.Text.Basic

/-! # Propagation

How a unit of work relates to the transaction that its context may already hold. -/

namespace Polystore
set_option autoImplicit false

inductive Propagation where
  /-- Joins a transaction or opens one. -/
  | required
  /-- Joins a transaction or runs without. -/
  | supports
  /-- Joins a transaction that must be there. -/
  | mandatory
  /-- Opens a transaction of its own. -/
  | requiresNew
  /-- Runs without a transaction; none may be there. -/
  | never
  /-- Like `required`; there are no savepoints. -/
  | nested
deriving DecidableEq, Repr

namespace Propagation

def all : List Propagation := [required, supports, mandatory, requiresNew, never, nested]

def text : Propagation → String
  | required => "required"
  | supports => "supports"
  | mandatory => "mandatory"
  | requiresNew => "requires_new"
  | never => "never"
  | nested => "nested"

/-- The name of exactly one mode. -/
def ofText? (s : String) : Option Propagation := all.find? (·.text == s)

def hyphenToUnderscore (c : Char) : Char := if c == '-' then '_' else c

/-- Reads a name in any letter case, with hyphens or underscores. -/
def parse (s : String) : Except String Propagation :=
  let lowered := Text.lowerAscii (Text.trim s)
  let name := String.ofList (lowered.toList.map hyphenToUnderscore)
  if name == "requiresnew" then .ok requiresNew
  else match ofText? name with
    | some p => .ok p
    | none => .error s!"unknown propagation: {name}"

end Propagation
end Polystore
