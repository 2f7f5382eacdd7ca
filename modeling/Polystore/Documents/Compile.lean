import Polystore.Documents.Predicate
import Polystore.Documents.Statement
import Polystore.Query.Normalize

/-! # Document compilation

Views as statements. A view starts from a filter document or from a pipeline of its own; the
caller's filter, sort and page follow. -/

namespace Polystore.Documents
set_option autoImplicit false

/-! ## Base queries -/

inductive Base where
  | filter (d : Document)
  | pipeline (stages : List Stage)

/-- A document of a native query, with the values of its parameters. -/
def nativeDocument (viewId : String) (params : Entries Value) (j : Json) : Except Error Document :=
  match (Value.ofJson j).resolve params with
  | .error e => .error (.planning e)
  | .ok (.map d) => .ok d
  | .ok v => .error (.planning (.invalidNativeQuery viewId
      ("expected a document but found " ++ v.kind.text)))

def nativeStages (viewId : String) (params : Entries Value) :
    List Json → Except Error (List Stage)
  | [] => .ok []
  | j :: js => do
    let d ← nativeDocument viewId params j
    let stages ← nativeStages viewId params js
    .ok (.native d :: stages)

def present? (j : Option Json) : Option Json :=
  match j with
  | some .null => none
  | j => j

def isStage : Json → Bool
  | .obj members => members.any fun m => Text.startsWith "$" m.1
  | _ => false

def isArray : Json → Bool
  | .arr _ => true
  | _ => false

def stepsOf : Json → List Json
  | .arr items => items
  | j => [j]

/-- A projection, a list and an operator each make a native query a pipeline. -/
def nativeBase (viewId : String) (q : NativeQuery) (params : Entries Value) : Except Error Base :=
  let sql := present? q.sql
  let projection := present? q.projection
  if projection.isSome || sql.any fun j => isArray j || isStage j then
    (nativeStages viewId params ((sql.toList ++ projection.toList).flatMap stepsOf)).map .pipeline
  else
    match sql with
    | none => .ok (.filter [])
    | some j => (nativeDocument viewId params j).map .filter

def base (v : View) (params : Entries Value) : Except Error Base :=
  match v.native with
  | some q => nativeBase v.id q params
  | none => .ok (.filter [])

/-! ## Reads -/

def sortKeys (v : View) (sort : List SortField) : List SortKey :=
  sort.map fun f => (pathOf v f.field, f.dir)

def skipped : Page → UInt64
  | .offset n _ => n
  | .seek _ _ => 0

def filterStage (d : Document) : List Stage := if d.isEmpty then [] else [.filter d]

def sortStage (keys : List SortKey) : List Stage := if keys.isEmpty then [] else [.sort keys]

def skipStage (n : UInt64) : List Stage := if n == 0 then [] else [.skip n]

def select (s : Scope) (filter : Option Filter) (sort : List SortField) (page : Page)
    (params : Entries Value) : Except Error Statement := do
  let collection ← lift .planning s.source
  let p ← predicate? s filter
  let later ← seek s sort page
  let restriction := both (p.getD []) (later.getD [])
  let keys := sortKeys s.view sort
  let skip := skipped page
  match ← base s.view params with
  | .filter d =>
    .ok { Statement.on .find collection with
      filter := both d restriction, sort := keys, skip := if skip == 0 then none else some skip,
      limit := some page.limit }
  | .pipeline stages =>
    .ok { Statement.on .aggregate collection with
      pipeline := stages ++ filterStage restriction ++ sortStage keys ++ skipStage skip ++
        [.limit page.limit] }

def countField : String := "n"

def count (s : Scope) (filter : Option Filter) (params : Entries Value) :
    Except Error Statement := do
  let collection ← lift .planning s.source
  let restriction := (← predicate? s filter).getD []
  match ← base s.view params with
  | .filter d => .ok { Statement.on .count collection with filter := both d restriction }
  | .pipeline stages =>
    .ok { Statement.on .aggregate collection with
      pipeline := stages ++ filterStage restriction ++ [.count countField] }

end Polystore.Documents
