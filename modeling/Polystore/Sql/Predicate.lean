import Polystore.Model.Scope
import Polystore.Query.JsonPath
import Polystore.Sql.Feature

/-! # SQL predicates

A filter becomes a tree of tests joined by AND and OR, with the negations pushed down to the
tests. Markers are numbered in the order in which they are written. -/

namespace Polystore.Sql
set_option autoImplicit false

open Tokens (key spaced commaSeparated parenthesized join)

inductive Pred where
  | test (ts : Tokens) (negated : Bool)
  | group (clause : Clause) (parts : List Pred) (wrapped : Bool)

def clauseKey : Clause → Keyword
  | .and => .and
  | .or => .or

namespace Pred

def clauseSeparator (c : Clause) : Tokens := [.key .space, .key (clauseKey c), .key .space]

mutual
def tokens : Pred → Tokens
  | test ts negated => if negated then .key .not :: .key .space :: parenthesized ts else ts
  | group c ps wrapped =>
    let joined := join (clauseSeparator c) (tokensAll ps)
    if wrapped then parenthesized joined else joined
def tokensAll : List Pred → List Tokens
  | [] => []
  | p :: ps => p.tokens :: tokensAll ps
end

def constant (b : Bool) : Pred := test [.litBool b] false

end Pred

/-! ## Operands -/

def marker (n : Nat) : Token := .marker ("b" ++ n.repr)

def markersAfter (n : Nat) : List Bind → List Tokens
  | [] => []
  | _ :: bs => [marker (n + 1)] :: markersAfter (n + 1) bs

/-- Texts of identifiers are bound as identifiers. -/
def coerceScalar (typeId : String) (v : Value) : Value :=
  match v with
  | .str s =>
    if Text.sameIgnoringCase typeId "uuid" then
      match Uuid.ofText? (Text.trim s) with
      | some u => .uuid u
      | none => .str s
    else .str s
  | v => v

def scalarBind (typeId : String) (v : Value) : Bind := ⟨coerceScalar typeId v, typeId⟩

/-- A whole list as one operand of the type of its field. -/
def listBind (typeId : String) (vs : List Value) : Bind :=
  match elementTypeId? typeId with
  | some e => ⟨.list (vs.map (coerceScalar e)), typeId⟩
  | none => ⟨.list vs, typeId⟩

/-! ## Conditions -/

/-- Tokens and the binds of the markers in them. -/
abbrev Bound (α : Type) := α × List Bind

def nullOperand (op : Operator) : Error := .planning (.nullOperand op.name)

def comparison (n : Nat) (expr : String) (op : Keyword) (typeId : String) (v : Value) :
    Bound Tokens :=
  (spaced [[.raw expr], key op, [marker (n + 1)]], [scalarBind typeId v])

/-- Equality with null is a test for null. -/
def equality (n : Nat) (expr : String) (op nullTest : Keyword) (typeId : String) (v : Value) :
    Bound Tokens :=
  if v.isNull then (spaced [[.raw expr], key nullTest], []) else comparison n expr op typeId v

def ordering (n : Nat) (expr : String) (op : Operator) (k : Keyword) (typeId : String)
    (v : Value) : Except Error (Bound Tokens) :=
  if v.isNull then .error (nullOperand op) else .ok (comparison n expr k typeId v)

/-- Membership in an empty list is a constant. -/
def membership (n : Nat) (expr : String) (op : Operator) (typeId : String) (vs : List Value)
    (negated : Bool) : Except Error (Bound Pred) :=
  let outside := op == .notIn
  if vs.isEmpty then .ok (.constant (outside ^^ negated), [])
  else if vs.any Value.isNull then .error (nullOperand op)
  else
    let binds := vs.map (scalarBind typeId)
    let list := parenthesized (commaSeparated (markersAfter n binds))
    .ok (.test (spaced ([[.raw expr]] ++ (if outside then [key .not] else []) ++
      [key .in, list])) negated, binds)

def between (n : Nat) (expr : String) (typeId : String) (lower upper : Value) :
    Except Error (Bound Tokens) :=
  if lower.isNull || upper.isNull then .error (nullOperand .range)
  else .ok (spaced [[.raw expr], key .between, [marker (n + 1)], key .and, [marker (n + 2)]],
    [scalarBind typeId lower, scalarBind typeId upper])

/-- A test of an array against a list; against an empty one it is a constant. -/
def arrayTest (n : Nat) (typeId : String) (vs : List Value) (empty negated : Bool)
    (render : Token → Except PlanningError Tokens) : Except Error (Bound Pred) :=
  if vs.isEmpty then .ok (.constant (empty ^^ negated), [])
  else match render (marker (n + 1)) with
    | .ok ts => .ok (.test ts negated, [listBind typeId vs])
    | .error e => .error (.planning e)

def jsonPathTest (d : Dialect) (expr : String) (v : Value) : Except Error Tokens :=
  match v with
  | .str path => lift .planning (d.jsonPathExists expr (JsonPath.segments path))
  | _ => .error (.planning (.invalidOperand .jsonPathExists "a JSON path string"))

def jsonValueTest (n : Nat) (d : Dialect) (expr : String) (v : Value) : Except Error (Bound Tokens) :=
  match JsonPath.operand? v with
  | none => .error (.planning (.invalidOperand .jsonValueEq "an object with path and value"))
  | some (path, v) =>
    (lift .planning (d.jsonValueEq expr (marker (n + 1)))).map fun ts =>
      (ts, [⟨JsonPath.fragment (JsonPath.segments path) v, "json"⟩])

def asTest (negated : Bool) (b : Bound Tokens) : Bound Pred := (.test b.1 negated, b.2)

def condition (d : Dialect) (s : Scope) (n : Nat) (c : Condition) (negate : Bool) :
    Except Error (Bound Pred) := do
  let expr := s.view.refPath c.property
  let typeId ← s.scalarType .filter c.property
  let negated := c.negated ^^ negate
  let plain (r : Except Error (Bound Tokens)) : Except Error (Bound Pred) := r.map (asTest negated)
  let op := c.operator
  match op with
  | .eq => plain (.ok (equality n expr .eq .isNull typeId c.value))
  | .ne => plain (.ok (equality n expr .ne .isNotNull typeId c.value))
  | .gt => plain (ordering n expr op .gt typeId c.value)
  | .ge => plain (ordering n expr op .gte typeId c.value)
  | .lt => plain (ordering n expr op .lt typeId c.value)
  | .le => plain (ordering n expr op .lte typeId c.value)
  | .like => plain (ordering n expr op .like typeId c.value)
  | .inList => membership n expr op typeId c.value.toList negated
  | .notIn => membership n expr op typeId c.value.toList negated
  | .range => plain (between n expr typeId c.lower c.upper)
  | .arrayContains => arrayTest n typeId c.value.toList true negated (d.arrayContains expr)
  | .arrayNotContains => arrayTest n typeId c.value.toList true (!negated) (d.arrayContains expr)
  | .arrayOverlaps => arrayTest n typeId c.value.toList false negated (d.arrayOverlaps expr)
  | .arrayNotOverlaps => arrayTest n typeId c.value.toList false (!negated) (d.arrayOverlaps expr)
  | .jsonPathExists => plain ((jsonPathTest d expr c.value).map fun ts => (ts, []))
  | .jsonValueEq => plain (jsonValueTest n d expr c.value)

/-! ## Trees -/

/-- The group of some predicates, as far as it needs to be one. -/
def grouped (clause : Clause) (wrap : Bool) : List Pred → Option Pred
  | [] => none
  | [p] => some p
  | ps => some (.group clause ps wrap)

mutual
/-- The predicate of a filter behind `n` markers; none if it has no conditions. -/
def predicate (d : Dialect) (s : Scope) (n : Nat) (negate wrap : Bool) :
    Filter → Except Error (Bound (Option Pred))
  | .cond c => (condition d s n c negate).map fun (p, bs) => (some p, bs)
  | .not f => predicate d s n (!negate) wrap f
  | .group clause fs =>
    let clause := if negate then clause.flip else clause
    (predicates d s n negate (wrap || 1 < fs.length) fs).map fun (ps, bs) =>
      (grouped clause wrap ps, bs)
def predicates (d : Dialect) (s : Scope) (n : Nat) (negate wrap : Bool) :
    List Filter → Except Error (Bound (List Pred))
  | [] => .ok ([], [])
  | f :: fs => do
    let (p, bs) ← predicate d s n negate wrap f
    let (ps, cs) ← predicates d s (n + bs.length) negate wrap fs
    .ok (p.toList ++ ps, bs ++ cs)
end

def predicate? (d : Dialect) (s : Scope) (wrap : Bool) :
    Option Filter → Except Error (Bound (Option Pred))
  | none => .ok (none, [])
  | some f => predicate d s 0 false wrap f

/-! ## Seek pages -/

def seekTest (s : Scope) (after : Entries Value) (n : Nat) (op : Keyword) (field : String) :
    Except Error (Bound Pred) := do
  match after.lookup field with
  | none => .error (.planning (.missingSeekValue field))
  | some v =>
    if v.isNull then .error (.planning (.missingSeekValue field))
    else
      let typeId ← s.scalarType .sort field
      .ok (asTest false (comparison n (s.view.refPath field) op typeId v))

def laterKey : SortDir → Keyword
  | .asc => .gt
  | .desc => .lt

/-- Equality in the earlier fields, and a later value in the last one. -/
def seekTests (s : Scope) (after : Entries Value) (last : SortField) (n : Nat) :
    List SortField → Except Error (Bound (List Pred))
  | [] => do
    let (p, bs) ← seekTest s after n (laterKey last.dir) last.field
    .ok ([p], bs)
  | f :: fs => do
    let (p, bs) ← seekTest s after n .eq f.field
    let (ps, cs) ← seekTests s after last (n + bs.length) fs
    .ok (p :: ps, bs ++ cs)

def seekTerms (s : Scope) (after : Entries Value) (n : Nat) (earlier : List SortField) :
    List SortField → Except Error (Bound (List Pred))
  | [] => .ok ([], [])
  | f :: fs => do
    let (ps, bs) ← seekTests s after f n earlier
    let (ts, cs) ← seekTerms s after (n + bs.length) (earlier ++ [f]) fs
    .ok (.group .and ps true :: ts, bs ++ cs)

/-- The rows behind the last one received; none on the first page. With a predicate in front of it
a choice of several terms needs parentheses. -/
def seek (s : Scope) (n : Nat) (sort : List SortField) (hasWhere : Bool) :
    Page → Except Error (Bound (Option Pred))
  | .offset _ _ => .ok (none, [])
  | .seek _ after =>
    if after.isEmpty then .ok (none, [])
    else if sort.isEmpty then .error (.planning .seekWithoutSort)
    else (seekTerms s after n [] sort).map fun (ts, bs) =>
      (some (.group .or ts (hasWhere && 1 < ts.length)), bs)

end Polystore.Sql
