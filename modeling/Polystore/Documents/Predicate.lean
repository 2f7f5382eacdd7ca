import Polystore.Model.Scope
import Polystore.Documents.Like
import Polystore.Documents.Storing
import Polystore.Query.Basic
import Polystore.Query.JsonPath

/-! # Predicate documents

A filter becomes a document of tests by path. Negations are pushed down to the tests, where a
negated one is the only element of a `$nor`. -/

namespace Polystore.Documents
set_option autoImplicit false

/-! ## Connectives -/

def entry (key : String) (v : Value) : Document := [(key, v)]

def constant (b : Bool) : Document := entry "$expr" (.bool b)

def clauseKey : Clause → String
  | .and => "$and"
  | .or => "$or"

/-- The predicate of some predicates, as far as it needs a connective. -/
def joined (clause : Clause) : List Document → Option Document
  | [] => none
  | [d] => some d
  | ds => some (entry (clauseKey clause) (.list (ds.map .map)))

/-- Both predicates; an empty document is none. -/
def both (a b : Document) : Document :=
  if a.isEmpty then b
  else if b.isEmpty then a
  else entry "$and" (.list [.map a, .map b])

def asNegated (negated : Bool) (d : Document) : Document :=
  if negated then entry "$nor" (.list [.map d]) else d

/-! ## Conditions -/

def pathOf (v : View) (property : String) : String := PathPolicy.explicit.column v property

def childPath (path jsonPath : String) : String :=
  match JsonPath.segments jsonPath with
  | [] => path
  | segs => path ++ "." ++ ".".intercalate segs

def operand (path typeId : String) (v : Value) : Except Error Value := stored .filter path ⟨v, typeId⟩

def operands (path typeId : String) (vs : List Value) : Except Error Value :=
  (storedAll .filter path typeId vs).map .list

def testBy (path key : String) (v : Value) : Document := entry path (.map (entry key v))

def nullOperand (op : Operator) : Error := .planning (.nullOperand op.name)

def ordering (path typeId : String) (op : Operator) (key : String) (v : Value) :
    Except Error Document :=
  if v.isNull then .error (nullOperand op)
  else (operand path typeId v).map (testBy path key)

/-- Equality with null holds also where nothing is stored. -/
def equality (path typeId : String) (v : Value) : Except Error Document :=
  if v.isNull then .ok (entry path .null) else (operand path typeId v).map (entry path)

def inequality (path typeId : String) (v : Value) : Except Error Document :=
  if v.isNull then .ok (testBy path "$ne" .null) else ordering path typeId .ne "$ne" v

/-- Membership in an empty list is a constant. -/
def membership (path typeId : String) (op : Operator) (vs : List Value) (negated : Bool) :
    Except Error Document :=
  let outside := op == .notIn
  if vs.isEmpty then .ok (constant (outside ^^ negated))
  else if vs.any Value.isNull then .error (nullOperand op)
  else (operands path typeId vs).map fun list =>
    asNegated negated (testBy path (if outside then "$nin" else "$in") list)

def between (path typeId : String) (lower upper : Value) : Except Error Document :=
  if lower.isNull || upper.isNull then .error (nullOperand .range)
  else do
    let low ← operand path typeId lower
    let high ← operand path typeId upper
    .ok (entry path (.map [("$gte", low), ("$lte", high)]))

def likeTest (path : String) (v : Value) : Except Error Document :=
  if v.isNull then .error (nullOperand .like)
  else .ok (testBy path "$regex" (.str (likeRegex v.text)))

/-- A test of an array against a list; against an empty one it is a constant. -/
def arrayTest (path typeId key : String) (vs : List Value) (empty negated : Bool) :
    Except Error Document :=
  if vs.isEmpty then .ok (constant (empty ^^ negated))
  else (operands path ((elementTypeId? typeId).getD typeId) vs).map fun list =>
    asNegated negated (testBy path key list)

def jsonPathTest (path : String) (v : Value) : Except Error Document :=
  match v with
  | .str jsonPath => .ok (testBy (childPath path jsonPath) "$exists" (.bool true))
  | _ => .error (.planning (.invalidOperand .jsonPathExists "a JSON path string"))

def jsonValueTest (path typeId : String) (v : Value) : Except Error Document :=
  match JsonPath.operand? v with
  | none => .error (.planning (.invalidOperand .jsonValueEq "an object with path and value"))
  | some (jsonPath, v) =>
    let full := childPath path jsonPath
    (operand full typeId v).map (entry full)

def condition (s : Scope) (c : Condition) (negate : Bool) : Except Error Document := do
  let path := pathOf s.view c.property
  let typeId ← s.scalarType .filter c.property
  let negated := c.negated ^^ negate
  let plain (r : Except Error Document) : Except Error Document := r.map (asNegated negated)
  let op := c.operator
  match op with
  | .eq => plain (equality path typeId c.value)
  | .ne => plain (inequality path typeId c.value)
  | .gt => plain (ordering path typeId op "$gt" c.value)
  | .ge => plain (ordering path typeId op "$gte" c.value)
  | .lt => plain (ordering path typeId op "$lt" c.value)
  | .le => plain (ordering path typeId op "$lte" c.value)
  | .like => plain (likeTest path c.value)
  | .inList => membership path typeId op c.value.toList negated
  | .notIn => membership path typeId op c.value.toList negated
  | .range => plain (between path typeId c.lower c.upper)
  | .arrayContains => arrayTest path typeId "$all" c.value.toList true negated
  | .arrayNotContains => arrayTest path typeId "$all" c.value.toList true (!negated)
  | .arrayOverlaps => arrayTest path typeId "$in" c.value.toList false negated
  | .arrayNotOverlaps => arrayTest path typeId "$in" c.value.toList false (!negated)
  | .jsonPathExists => plain (jsonPathTest path c.value)
  | .jsonValueEq => plain (jsonValueTest path typeId c.value)

/-! ## Trees -/

mutual
/-- The predicate of a filter; none if it has no conditions. -/
def predicate (s : Scope) (negate : Bool) : Filter → Except Error (Option Document)
  | .cond c => (condition s c negate).map some
  | .not f => predicate s (!negate) f
  | .group clause fs =>
    (predicates s negate fs).map (joined (if negate then clause.flip else clause))
def predicates (s : Scope) (negate : Bool) : List Filter → Except Error (List Document)
  | [] => .ok []
  | f :: fs => do
    let p ← predicate s negate f
    let ps ← predicates s negate fs
    .ok (p.toList ++ ps)
end

def predicate? (s : Scope) : Option Filter → Except Error (Option Document)
  | none => .ok none
  | some f => predicate s false f

/-! ## Seek pages -/

/-- The path of a sort field and the stored form of its value in the last row. -/
def seekOperand (s : Scope) (after : Entries Value) (field : String) :
    Except Error (String × Value) := do
  match after.lookup field with
  | none => .error (.planning (.missingSeekValue field))
  | some v =>
    if v.isNull then .error (.planning (.missingSeekValue field))
    else
      let typeId ← s.scalarType .sort field
      let path := pathOf s.view field
      (operand path typeId v).map fun w => (path, w)

def laterKey : SortDir → String
  | .asc => "$gt"
  | .desc => "$lt"

/-- Equality in the earlier fields, and a later value in the last one. -/
def seekTests (s : Scope) (after : Entries Value) (last : SortField) :
    List SortField → Except Error (List Document)
  | [] => do
    let (path, v) ← seekOperand s after last.field
    .ok [testBy path (laterKey last.dir) v]
  | f :: fs => do
    let (path, v) ← seekOperand s after f.field
    let ds ← seekTests s after last fs
    .ok (entry path v :: ds)

def seekTerms (s : Scope) (after : Entries Value) (earlier : List SortField) :
    List SortField → Except Error (List Document)
  | [] => .ok []
  | f :: fs => do
    let ds ← seekTests s after f earlier
    let ts ← seekTerms s after (earlier ++ [f]) fs
    .ok ((joined .and ds).toList ++ ts)

/-- The documents behind the last one received; none on the first page. -/
def seek (s : Scope) (sort : List SortField) : Page → Except Error (Option Document)
  | .offset _ _ => .ok none
  | .seek _ after =>
    if after.isEmpty then .ok none
    else if sort.isEmpty then .error (.planning .seekWithoutSort)
    else (seekTerms s after [] sort).map (joined .or)

end Polystore.Documents
