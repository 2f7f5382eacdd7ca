import Polystore.Error
import Polystore.Json.Reading
import Polystore.Query.Basic

/-! # Wire form

Queries as JSON. The canonical form keys a condition by its operator and a group by its clause;
`toWire` writes it, `ofWire` also reads older forms: a condition with `operator` and `property`
members, a group with `clause` and `elements`, and a list headed by its clause. Whole numbers carry
no width and are read as longs. -/

namespace Polystore
set_option autoImplicit false

namespace Wire

/-! ## Members -/

/-- A text, or any other value that is not null as JSON text. -/
def text? : Option Json → Option String
  | none => none
  | some .null => none
  | some (.str s) => some s
  | some j => some j.text

def flag : Option Json → Bool
  | some (.bool b) => b
  | some (.str s) => Text.sameIgnoringCase s "true"
  | _ => false

def valueOf (j : Option Json) : Value := (j.map Value.ofJson).getD .null

/-- A whole number or the text of one; null and nothing stand for the default. -/
def number (d : Int64) : Option Json → Except WireError Int64
  | none => .ok d
  | some .null => .ok d
  | some (.int n) =>
    if Number.fits64 n then .ok (Int64.ofInt n) else .error (.invalidPage (Json.int n).text)
  | some (.str s) =>
    match Number.int64? (Text.trim s) with
    | some n => .ok n
    | none => .error (.invalidPage s)
  | some j => .error (.invalidPage j.text)

def strings (js : List Json) : List String := js.filterMap Json.str?

abbrev Members := List (String × Json)

def either? (a b : String) (ms : Members) : Option Json := (ms.lookup a).or (ms.lookup b)

def hasKey (k : String) (ms : Members) : Bool := (ms.lookup k).isSome

/-! ## Conditions -/

def required (what expected : String) : Option String → Except WireError String
  | some s => .ok s
  | none => .error (.shape what expected)

/-- A condition whose operator is its key. -/
def canonicalCondition (op : Operator) (body : Members) : Except WireError Condition := do
  let property ← required "condition" "a 'field'" (text? (body.lookup "field"))
  let c := { Condition.of property op .null with negated := flag (body.lookup "not") }
  match op with
  | .range =>
    .ok { c with lower := valueOf (body.lookup "lower"), upper := valueOf (body.lookup "upper") }
  | .inList => .ok { c with value := valueOf (either? "values" "value" body) }
  | .notIn => .ok { c with value := valueOf (either? "values" "value" body) }
  | _ => .ok { c with value := valueOf (body.lookup "value") }

def operatorNamed (s : String) : Except WireError Operator :=
  match Operator.ofName? s with
  | some op => .ok op
  | none => .error (.unknownOperator s)

/-- A condition whose operator is a member. -/
def memberCondition (ms : Members) : Except WireError Condition := do
  let name ← required "condition" "an 'operator'" (text? (either? "operator" "op" ms))
  let op ← operatorNamed name
  let property ← required "condition" "a 'property'" (text? (either? "property" "propertyPath" ms))
  let c := { Condition.of property op .null with negated := flag (ms.lookup "not") }
  if op = .range then
    .ok { c with
      lower := valueOf (either? "lower" "from" ms), upper := valueOf (either? "upper" "to" ms) }
  else .ok { c with value := valueOf (either? "value" "values" ms) }

/-! ## Elements -/

def clauseNamed (s : String) : Except WireError Clause :=
  match Clause.ofName? s with
  | some c => .ok c
  | none => .error (.unknownElement ("clause " ++ Text.upperAscii (Text.trim s)))

/-- The clause at the head of a list. -/
def headClause (head : Option Json) : Except WireError Clause := do
  let name ← required "group list" "a leading \x7bclause: AND|OR\x7d" (text? (head.bind (Json.get? "clause")))
  clauseNamed name

/-- The first member that is keyed by an operator. -/
def operatorMember? : Members → Option (Operator × String × Json)
  | [] => none
  | (k, j) :: ms =>
    match Operator.ofName? k with
    | some op => some (op, k, j)
    | none => operatorMember? ms

/-- What an object is as a filter element; children are still to be read. -/
inductive Form where
  | children (clause : Clause) (key : String)
  | memberCondition
  | negation
  | operator (op : Operator) (key : String) (body : Json)
  | elements
  | unknown

/-- `and` and `or` come first, then a condition with an `operator` member, `not`, an operator's key
and a group with members. -/
def form (ms : Members) : Form :=
  if hasKey "and" ms then .children .and "and"
  else if hasKey "or" ms then .children .or "or"
  else if hasKey "operator" ms || hasKey "op" ms then .memberCondition
  else if hasKey "not" ms then .negation
  else match operatorMember? ms with
    | some (op, key, body) => .operator op key body
    | none =>
      if hasKey "clause" ms || hasKey "elements" ms then .elements else .unknown

def membersClause (ms : Members) : Clause :=
  ((text? (ms.lookup "clause")).bind Clause.ofName?).getD .and

def operatorCondition (op : Operator) (key : String) : Json → Except WireError Condition
  | .obj body => canonicalCondition op body
  | _ => .error (.operatorBody key)

abbrev Read := Except WireError (Option Filter)

mutual
/-- Null is no element. -/
def element : Json → Read
  | .null => .ok none
  | .arr items =>
    match headClause items.head? with
    | .error e => .error e
    | .ok clause => (elementsTail items).map fun fs => some (.group clause fs)
  | .obj ms =>
    match form ms with
    | .children clause key => (memberChildren key ms).map fun fs => some (.group clause fs)
    | .memberCondition => (memberCondition ms).map fun c => some (.cond c)
    | .negation => (memberElement "not" ms).map fun r => r.map .not
    | .operator op key body => (operatorCondition op key body).map fun c => some (.cond c)
    | .elements =>
      (memberChildren "elements" ms).map fun fs => some (.group (membersClause ms) fs)
    | .unknown => .error (.unknownElement (Json.obj ms).text)
  | j => .error (.unknownElement j.text)
/-- The elements behind the head of a list. -/
def elementsTail : List Json → Except WireError (List Filter)
  | [] => .ok []
  | _ :: js => elements js
def elements : List Json → Except WireError (List Filter)
  | [] => .ok []
  | j :: js => do
    let r ← element j
    let fs ← elements js
    .ok (r.toList ++ fs)
def memberElement (key : String) : List (String × Json) → Read
  | [] => .ok none
  | (k, j) :: ms => if k = key then element j else memberElement key ms
/-- The elements of the array under a key; none if it is something else or missing. -/
def memberChildren (key : String) : List (String × Json) → Except WireError (List Filter)
  | [] => .ok []
  | (k, j) :: ms => if k = key then children j else memberChildren key ms
def children : Json → Except WireError (List Filter)
  | .arr js => elements js
  | _ => .ok []
end

/-! ## Pages and sorting -/

def page (ms : Members) : Except WireError Page := do
  let limit ← number 50 (ms.lookup "limit")
  if limit.toInt ≤ 0 then
    throw (.invalidPage ("limit must be > 0, got " ++ limit.toInt.repr))
  let isSeek := (text? (ms.lookup "type")).any (Text.sameIgnoringCase · "seek")
  if isSeek then
    let after := match ms.lookup "after" with
      | some (.obj a) => Entries.ofList (Value.ofJsonMembers a)
      | _ => []
    return .seek limit.toUInt64 after
  let offset ← number 0 (ms.lookup "offset")
  if offset.toInt < 0 then
    throw (.invalidPage ("offset must be >= 0, got " ++ offset.toInt.repr))
  return .offset offset.toUInt64 limit.toUInt64

def sortDir (j : Option Json) : Except WireError SortDir :=
  match text? j with
  | none => .ok .asc
  | some d =>
    if Text.sameIgnoringCase d "asc" then .ok .asc
    else if Text.sameIgnoringCase d "desc" then .ok .desc
    else .error (.shape "sort dir" "ASC or DESC")

/-- Entries that are no objects or have no field are passed over. -/
def sortFields : List Json → Except WireError (List SortField)
  | [] => .ok []
  | .obj ms :: js =>
    match text? (ms.lookup "field") with
    | none => sortFields js
    | some field => do
      let dir ← sortDir (ms.lookup "dir")
      let rest ← sortFields js
      .ok (⟨field, dir⟩ :: rest)
  | _ :: js => sortFields js

def groupByFields : Option Json → List String
  | some (.arr fields) => strings fields
  | some (.obj ms) =>
    match ms.lookup "fields" with
    | some (.arr fields) => strings fields
    | _ => []
  | _ => []

/-! ## Writing -/

def conditionBody (c : Condition) : List (String × Json) :=
  [("field", Json.str c.property)] ++ (if c.negated then [("not", Json.bool true)] else []) ++
    match c.operator with
    | .range => [("lower", c.lower.toJson), ("upper", c.upper.toJson)]
    | .inList => [("values", c.value.toJson)]
    | .notIn => [("values", c.value.toJson)]
    | _ => [("value", c.value.toJson)]

def clauseKey : Clause → String
  | .and => "and"
  | .or => "or"

mutual
def ofFilter : Filter → Json
  | .cond c => .obj [(c.operator.wireName, .obj (conditionBody c))]
  | .group clause fs => .obj [(clauseKey clause, .arr (ofFilters fs))]
  | .not f => .obj [("not", ofFilter f)]
def ofFilters : List Filter → List Json
  | [] => []
  | f :: fs => ofFilter f :: ofFilters fs
end

def ofWord (n : UInt64) : Json := .int n.toNat

def ofPage : Page → Json
  | .offset offset limit =>
    .obj [("type", .str "offset"), ("offset", ofWord offset), ("limit", ofWord limit)]
  | .seek limit after =>
    .obj ([("type", Json.str "seek"), ("limit", ofWord limit)] ++
      if after.isEmpty then [] else [("after", .obj (Value.toJsonEntries after))])

def ofSort (s : SortField) : Json := .obj [("field", .str s.field), ("dir", .str s.dir.keyword)]

/-- A member that is left out if the list is empty. -/
def ofList {α : Type} (key : String) (l : List α) (j : Json) : List (String × Json) :=
  if l.isEmpty then [] else [(key, j)]

end Wire

namespace Filter

def ofWire (j : Json) : Except WireError (Option Filter) := Wire.element j

def toWire (f : Filter) : Json := Wire.ofFilter f

end Filter

namespace Query
open Wire

def ofMembers (ms : Members) : Except WireError Query := do
  let params := match ms.lookup "params" with
    | some (.obj ps) => Entries.ofList (Value.ofJsonMembers ps)
    | _ => []
  let filter ← match ms.lookup "filter" with
    | some j => element j
    | none => .ok none
  let page ← match ms.lookup "page" with
    | some (.obj p) => Wire.page p
    | _ => .ok Page.first
  let sort ← match ms.lookup "sort" with
    | some (.arr js) => sortFields js
    | _ => .ok []
  let projection := match ms.lookup "projection" with
    | some (.arr js) => strings js
    | _ => []
  .ok ⟨filter, page, sort, projection, groupByFields (ms.lookup "groupBy"), params⟩

def ofWire : Json → Except WireError Query
  | .obj ms => ofMembers ms
  | _ => .error (.shape "query" "a JSON object")

def ofText (s : String) : Except WireError Query :=
  match Json.parse? s with
  | some j => ofWire j
  | none => .error .notJson

def toWire (q : Query) : Json :=
  .obj ((q.filter.map fun f => ("filter", f.toWire)).toList ++ [("page", ofPage q.page)] ++
    ofList "sort" q.sort (.arr (q.sort.map ofSort)) ++
    ofList "projection" q.projection (.arr (q.projection.map .str)) ++
    ofList "groupBy" q.groupBy (.obj [("fields", .arr (q.groupBy.map .str))]) ++
    ofList "params" q.params (.obj (Value.toJsonEntries q.params)))

end Query
end Polystore
