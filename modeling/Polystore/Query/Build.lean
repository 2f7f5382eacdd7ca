import Polystore.Query.Basic

/-! # Filter builders -/

namespace Polystore.Filter
set_option autoImplicit false

def test (op : Operator) (property : String) (v : Value) : Filter := cond (.of property op v)

def eq : String → Value → Filter := test .eq
def ne : String → Value → Filter := test .ne
def gt : String → Value → Filter := test .gt
def ge : String → Value → Filter := test .ge
def lt : String → Value → Filter := test .lt
def le : String → Value → Filter := test .le

/-- A pattern in which `%` is any run of characters and `_` any one. -/
def like : String → Value → Filter := test .like

def between (property : String) (lower upper : Value) : Filter :=
  cond (.between property lower upper)

def testList (op : Operator) (property : String) (vs : List Value) : Filter :=
  test op property (.list vs)

def inList : String → List Value → Filter := testList .inList
def notIn : String → List Value → Filter := testList .notIn

/-- The array holds every given value. -/
def arrayContains : String → List Value → Filter := testList .arrayContains
def arrayNotContains : String → List Value → Filter := testList .arrayNotContains

/-- The array holds one of the given values. -/
def arrayOverlaps : String → List Value → Filter := testList .arrayOverlaps
def arrayNotOverlaps : String → List Value → Filter := testList .arrayNotOverlaps

def jsonPathExists (property path : String) : Filter := test .jsonPathExists property (.str path)

/-- The operand carries the path and the value to compare with. -/
def jsonValueEq (property path : String) (v : Value) : Filter :=
  test .jsonValueEq property (.map [("path", .str path), ("value", v)])

def all (fs : List Filter) : Filter := group .and fs
def any (fs : List Filter) : Filter := group .or fs

end Polystore.Filter
