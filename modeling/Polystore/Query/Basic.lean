import Polystore.Query.Operator
import Polystore.Value.Basic

/-! # Queries

Filter trees over property paths, sorting, pages, and the query that holds them. -/

namespace Polystore
set_option autoImplicit false

/-- A test of one property. The bounds belong to `range`, the value to all other operators. -/
structure Condition where
  property : String
  operator : Operator
  value : Value
  lower : Value
  upper : Value
  negated : Bool

namespace Condition

def of (property : String) (op : Operator) (v : Value) : Condition :=
  ⟨property, op, v, .null, .null, false⟩

def between (property : String) (lower upper : Value) : Condition :=
  ⟨property, .range, .null, lower, upper, false⟩

def negate (c : Condition) : Condition := { c with negated := !c.negated }

def same (a b : Condition) : Bool :=
  a.property == b.property && a.operator == b.operator && a.value.same b.value &&
    a.lower.same b.lower && a.upper.same b.upper && a.negated == b.negated

end Condition

inductive Filter where
  | cond (c : Condition)
  | group (clause : Clause) (elements : List Filter)
  | not (f : Filter)

namespace Filter

mutual
/-- The conditions of a tree from left to right. -/
def conditions : Filter → List Condition
  | cond c => [c]
  | group _ fs => conditionsAll fs
  | not f => conditions f
def conditionsAll : List Filter → List Condition
  | [] => []
  | f :: fs => conditions f ++ conditionsAll fs
end

mutual
def same : Filter → Filter → Bool
  | cond a, cond b => a.same b
  | group c as, group d bs => c == d && sameAll as bs
  | not a, not b => same a b
  | _, _ => false
def sameAll : List Filter → List Filter → Bool
  | [], [] => true
  | a :: as, b :: bs => same a b && sameAll as bs
  | _, _ => false
end

end Filter

inductive SortDir where
  | asc | desc
deriving DecidableEq, Repr

def SortDir.keyword : SortDir → String
  | asc => "ASC"
  | desc => "DESC"

structure SortField where
  field : String
  dir : SortDir
deriving DecidableEq, Repr

/-- A part of the result: by count, or behind the sort values of the last row received. Without
such values it is the first part. -/
inductive Page where
  | offset (offset limit : UInt64)
  | seek (limit : UInt64) (after : Entries Value)

namespace Page

def defaultLimit : UInt64 := 50

def first : Page := offset 0 defaultLimit

def limit : Page → UInt64
  | offset _ n => n
  | seek n _ => n

def same : Page → Page → Bool
  | offset a b, offset c d => a == c && b == d
  | seek a as, seek b bs => a == b && Value.sameEntries as bs
  | _, _ => false

end Page

structure Query where
  filter : Option Filter
  page : Page
  sort : List SortField
  projection : List String
  groupBy : List String
  params : Entries Value

namespace Query

def empty : Query := ⟨none, Page.first, [], [], [], []⟩

def sameFilter : Option Filter → Option Filter → Bool
  | none, none => true
  | some a, some b => a.same b
  | _, _ => false

def same (a b : Query) : Bool :=
  sameFilter a.filter b.filter && a.page.same b.page && a.sort == b.sort &&
    a.projection == b.projection && a.groupBy == b.groupBy &&
    Value.sameEntries a.params b.params

end Query
end Polystore
