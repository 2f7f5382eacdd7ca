import Polystore.Query.Basic
import Polystore.Tagged.Value

/-! # Queries as tagged JSON -/

namespace Polystore.Tagged
set_option autoImplicit false

/-! ## Writing -/

def condition (c : Condition) : Json :=
  .obj [("p", .str c.property), ("op", .str c.operator.name), ("v", value c.value),
    ("lo", value c.lower), ("hi", value c.upper), ("not", .bool c.negated)]

def clauseTag : Clause → String
  | .and => "and"
  | .or => "or"

mutual
def filter : Filter → Json
  | .cond c => .obj [("cond", condition c)]
  | .group c fs => .obj [(clauseTag c, .arr (filters fs))]
  | .not f => .obj [("not", filter f)]
def filters : List Filter → List Json
  | [] => []
  | f :: fs => filter f :: filters fs
end

def page : Page → Json
  | .offset o l => .obj [("offset", word o), ("limit", word l)]
  | .seek l after => .obj [("seek", word l), ("after", .obj (entries after))]

def sortField (f : SortField) : Json := texts [f.field, f.dir.keyword]

def query (q : Query) : Json :=
  .obj [("filter", orNull filter q.filter), ("page", page q.page),
    ("sort", .arr (q.sort.map sortField)), ("projection", texts q.projection),
    ("group_by", texts q.groupBy), ("params", .obj (entries q.params))]

/-! ## Reading -/

def operator? (name : String) : Option Operator := Operator.all.find? (·.name == name)

def condition? (j : Json) : Option Condition := do
  let property ← text? "p" j
  let op ← (text? "op" j).bind operator?
  let v ← valueAt? "v" j
  let lower ← valueAt? "lo" j
  let upper ← valueAt? "hi" j
  some ⟨property, op, v, lower, upper, flag "not" j⟩

mutual
def filter? : Json → Option Filter
  | .obj ms => element? ms
  | _ => none
def element? : List (String × Json) → Option Filter
  | [("and", .arr js)] => (filters? js).map (.group .and)
  | [("or", .arr js)] => (filters? js).map (.group .or)
  | [("not", j)] => (filter? j).map .not
  | [("cond", j)] => (condition? j).map .cond
  | _ => none
def filters? : List Json → Option (List Filter)
  | [] => some []
  | j :: js => do
    let f ← filter? j
    let fs ← filters? js
    some (f :: fs)
end

def filterAt? (key : String) (j : Json) : Option (Option Filter) :=
  match member? key j with
  | none => some none
  | some f => (filter? f).map some

def wordAt? (key : String) (missing : UInt64) (j : Json) : Option UInt64 :=
  match member? key j with
  | none => some missing
  | some n => word? n

/-- A page; a missing one is the first. -/
def page? : Option Json → Option Page
  | none => some Page.first
  | some j =>
    match j.get? "seek" with
    | some n => do
      let limit ← word? n
      let after ← entriesAt? "after" j
      some (.seek limit after)
    | none => do
      let offset ← wordAt? "offset" 0 j
      let limit ← wordAt? "limit" Page.defaultLimit j
      some (.offset offset limit)

def sortField? : Json → Option SortField
  | .arr [.str f, .str "ASC"] => some ⟨f, .asc⟩
  | .arr [.str f, .str "DESC"] => some ⟨f, .desc⟩
  | _ => none

def query? (j : Json) : Option Query := do
  let filter ← filterAt? "filter" j
  let page ← page? (member? "page" j)
  let sort ← (items? "sort" j).bind fun js => js.mapM sortField?
  let projection ← texts? "projection" j
  let groupBy ← texts? "group_by" j
  let params ← entriesAt? "params" j
  some ⟨filter, page, sort, projection, groupBy, params⟩

end Polystore.Tagged
