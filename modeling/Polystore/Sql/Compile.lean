import Polystore.Sql.Marker
import Polystore.Sql.Predicate

/-! # SQL compilation

Views and planned writes as statements of one dialect. A property path stands for the mapped
expression of the view, or else for its column in snake case. -/

namespace Polystore.Sql
set_option autoImplicit false

open Tokens (key spaced commaSeparated parenthesized)

/-! ## Base queries -/

def countAlias : String := "strata_count"

def baseAlias : String := "strata_base"

/-- The text a view starts from, the binds of its markers, and whether it has a WHERE already. -/
structure Base where
  tokens : Tokens
  binds : List Bind
  hasWhere : Bool

def mentionsWhere (sql : String) : Bool := (Text.words sql).contains "where"

def isFullQuery (lowered : String) : Bool :=
  Text.startsWith "select" lowered || Text.startsWith "with" lowered

/-- The base text of a native query: a full query or a fragment behind a projection. -/
def nativeText (base projection : String) : String × Bool :=
  let lowered := Text.lowerAscii (Text.trim base)
  if isFullQuery lowered then
    if projection == "*" then (base, mentionsWhere lowered)
    else ("SELECT " ++ projection ++ " FROM (" ++ base ++ ") " ++ baseAlias, false)
  else ("SELECT " ++ projection ++ " " ++ base, mentionsWhere lowered)

def nativeBase (viewId : String) (q : NativeQuery) (params : Entries Value) : Except Error Base :=
  match q.sqlText?.filter (!Text.isBlankText ·) with
  | none => .error (.planning (.invalidNativeQuery viewId "sql must be non-blank SQL text"))
  | some base =>
    let (sql, hasWhere) := nativeText base (q.projectionText?.getD "*")
    (lift .planning (bindsFor sql params)).map fun binds => ⟨[.raw sql], binds, hasWhere⟩

def selectItem (expr name : String) : Tokens := spaced [[.raw expr], key .as, [.ident name]]

/-- The columns of a field; a reference has those of its mapped children. -/
def fieldItems (v : View) (name : String) (f : Field) : List Tokens :=
  match f.type with
  | .ref _ =>
    match v.mapping.lookup name with
    | none => []
    | some m => m.fields.filterMap fun (child, c) =>
        c.target?.map fun col => selectItem col (name ++ "." ++ child)
  | _ => [selectItem (v.refPath name) name]

def selectItems (s : Scope) : List Tokens :=
  let items := s.entity.fields.flatMap fun (name, f) => fieldItems s.view name f
  if items.isEmpty then [key .star] else items

def derivedSelect (s : Scope) : Except PlanningError Tokens :=
  s.source.map fun table =>
    spaced [key .select, commaSeparated (selectItems s), key .from, [.ident table]]

def base (s : Scope) (params : Entries Value) : Except Error Base :=
  match s.view.native with
  | some q => nativeBase s.view.id q params
  | none => (lift .planning (derivedSelect s)).map fun ts => ⟨ts, [], false⟩

/-- Appends a predicate behind AND or WHERE. -/
def Base.restrict (b : Base) : Bound (Option Pred) → Base
  | (none, bs) => { b with binds := b.binds ++ bs }
  | (some p, bs) =>
    ⟨spaced [b.tokens, key (if b.hasWhere then .and else .where), p.tokens], b.binds ++ bs, true⟩

/-! ## Reads -/

def dirKey : SortDir → Keyword
  | .asc => .asc
  | .desc => .desc

def orderItem (v : View) (f : SortField) : Tokens := spaced [[.raw (v.refPath f.field)], key (dirKey f.dir)]

def orderBy (v : View) (sort : List SortField) : List Tokens :=
  if sort.isEmpty then [] else [key .orderBy, commaSeparated (sort.map (orderItem v))]

/-- The base query under the caller's filter. -/
def filtered (d : Dialect) (s : Scope) (filter : Option Filter) (params : Entries Value) :
    Except Error (Base × Nat) := do
  let b ← base s params
  let p ← predicate? d s true filter
  .ok (b.restrict p, p.2.length)

def select (d : Dialect) (s : Scope) (filter : Option Filter) (sort : List SortField) (page : Page)
    (params : Entries Value) : Except Error Statement := do
  let (b, n) ← filtered d s filter params
  let p ← seek s n sort b.hasWhere page
  let b := b.restrict p
  let ts := spaced ([b.tokens] ++ orderBy s.view sort ++ [d.page page])
  .ok ⟨ts, b.binds, .query⟩

def count (d : Dialect) (s : Scope) (filter : Option Filter) (params : Entries Value) :
    Except Error Statement := do
  let (b, _) ← filtered d s filter params
  let ts := spaced [key .select, [.raw "COUNT(1)"], key .from, parenthesized b.tokens,
    [.raw countAlias]]
  .ok ⟨ts, b.binds, .query⟩

/-! ## Writes -/

def insertTokens (w : Insert) : Except PlanningError Tokens :=
  if w.columns.isEmpty then .error (.emptyInsert w.table)
  else .ok (spaced [key .insert, key .into, [.ident w.table],
    parenthesized (identList w.columnNames), key .values,
    parenthesized (commaSeparated (markersAfter 0 (w.columns.map (·.bind))))])

def insert (d : Dialect) (w : Insert) : Except PlanningError Statement := do
  let ts ← insertTokens w
  let back := d.returning w.returning
  .ok ⟨spaced ([ts] ++ if back.isEmpty then [] else [back]), w.columns.map (·.bind),
    d.insertExec (!w.returning.isEmpty)⟩

def upsert (d : Dialect) (w : Upsert) : Except PlanningError Statement := do
  let ts ← insertTokens w.insert
  let (ts, exec) ← d.upsert ts w
  .ok ⟨ts, w.insert.columns.map (·.bind), exec⟩

/-- The assignments of an update with their markers from number `n + 1` on. -/
def setItems (n : Nat) : List ColumnBind → List Tokens
  | [] => []
  | c :: cs => spaced [[.ident c.column], key .eq, [marker (n + 1)]] :: setItems (n + 1) cs

def whereClause (p : Option Pred) : List Tokens :=
  match p with
  | none => []
  | some p => [key .where, p.tokens]

/-- The predicate of a write, behind `n` markers and without parentheses around it. -/
def writePredicate (d : Dialect) (s : Scope) (n : Nat) :
    Option Filter → Except Error (Bound (Option Pred))
  | none => .ok (none, [])
  | some f => predicate d s n false false f

def update (d : Dialect) (s : Scope) (w : Update) : Except Error Statement := do
  if w.sets.isEmpty then throw (.planning (.emptyUpdate w.table))
  let (p, bs) ← writePredicate d s w.sets.length w.filter
  let ts := spaced ([key .update, [.ident w.table], key .set, commaSeparated (setItems 0 w.sets)] ++
    whereClause p)
  return ⟨ts, w.sets.map (·.bind) ++ bs, .update⟩

def delete (d : Dialect) (s : Scope) (w : Delete) : Except Error Statement := do
  let (p, bs) ← writePredicate d s 0 w.filter
  let ts := spaced ([key .delete, key .from, [.ident w.table]] ++ whereClause p)
  .ok ⟨ts, bs, .update⟩

def write (d : Dialect) (s : Scope) : Write → Except Error Statement
  | .insert w => lift .planning (insert d w)
  | .update w => update d s w
  | .delete w => delete d s w
  | .upsert w => lift .planning (upsert d w)

end Polystore.Sql
