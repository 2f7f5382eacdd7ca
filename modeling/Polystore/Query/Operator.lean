import Polystore.Text.Basic

/-! # Filter operators -/

namespace Polystore
set_option autoImplicit false

/-- The tests a condition can make. The array and JSON operators are there only in dialects that
can express them. -/
inductive Operator where
  | eq | ne | gt | ge | lt | le | inList | notIn | range | like
  | arrayContains | arrayNotContains | arrayOverlaps | arrayNotOverlaps
  | jsonPathExists | jsonValueEq
deriving DecidableEq, Repr

namespace Operator

def all : List Operator :=
  [eq, ne, gt, ge, lt, le, inList, notIn, range, like, arrayContains, arrayNotContains,
    arrayOverlaps, arrayNotOverlaps, jsonPathExists, jsonValueEq]

theorem mem_all (op : Operator) : op ∈ all := by cases op <;> decide

def name : Operator → String
  | eq => "EQ"
  | ne => "NE"
  | gt => "GT"
  | ge => "GE"
  | lt => "LT"
  | le => "LE"
  | inList => "IN"
  | notIn => "NIN"
  | range => "RANGE"
  | like => "LIKE"
  | arrayContains => "ARRAY_CONTAINS"
  | arrayNotContains => "ARRAY_NOT_CONTAINS"
  | arrayOverlaps => "ARRAY_OVERLAPS"
  | arrayNotOverlaps => "ARRAY_NOT_OVERLAPS"
  | jsonPathExists => "JSON_PATH_EXISTS"
  | jsonValueEq => "JSON_VALUE_EQ"

/-- The name in lower case, as the wire form writes it. -/
def wireName (op : Operator) : String := Text.lowerAscii op.name

/-- The operand is a list of values. -/
def isListShaped : Operator → Bool
  | inList | notIn | arrayContains | arrayNotContains | arrayOverlaps | arrayNotOverlaps => true
  | _ => false

/-- Not every dialect can express the operator. -/
def isRestricted : Operator → Bool
  | arrayContains | arrayNotContains | arrayOverlaps | arrayNotOverlaps | jsonPathExists
  | jsonValueEq => true
  | _ => false

/-- Reads a name in any letter case, blanks around it aside. -/
def ofName? (s : String) : Option Operator :=
  all.find? (·.name == Text.upperAscii (Text.trim s))

end Operator

inductive Clause where
  | and | or
deriving DecidableEq, Repr

namespace Clause

def flip : Clause → Clause
  | and => or
  | or => and

def keyword : Clause → String
  | and => "AND"
  | or => "OR"

def ofName? (s : String) : Option Clause :=
  let name := Text.upperAscii (Text.trim s)
  if name == "AND" then some and else if name == "OR" then some or else none

end Clause
end Polystore
