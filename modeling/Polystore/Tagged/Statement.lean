import Polystore.Documents.Statement
import Polystore.Sql.Prepare
import Polystore.Tagged.Query

/-! # Writes and statements as tagged JSON -/

namespace Polystore.Tagged
set_option autoImplicit false

/-! ## Binds and arguments -/

def bind (b : Bind) : Json := .arr [value b.value, .str b.typeId]

def bind? : Json → Option Bind
  | .arr [v, .str t] => (value? v).map fun v => ⟨v, t⟩
  | _ => none

def sqlArg : SqlArg → Json
  | .plain v => .obj [("plain", value v)]
  | .timestamp t => .obj [("timestamp", instant t)]
  | .jsonText t => .obj [("json_text", .str t)]
  | .jsonb t => .obj [("jsonb", orNull .str t)]
  | .array t vs => .obj [("array", .str t), ("items", values vs)]

def sqlArgs (args : List SqlArg) : Json := .arr (args.map sqlArg)

/-! ## Planned writes -/

def columns (cs : List ColumnBind) : Json :=
  .arr (cs.map fun c => .arr [.str c.column, value c.bind.value, .str c.bind.typeId])

def insertMembers (w : Insert) : List (String × Json) :=
  [("table", .str w.table), ("columns", columns w.columns), ("returning", texts w.returning)]

def write : Write → Json
  | .insert w => .obj (("kind", .str "insert") :: insertMembers w)
  | .update w => .obj [("kind", .str "update"), ("table", .str w.table),
      ("columns", columns w.sets), ("filter", orNull filter w.filter)]
  | .delete w => .obj [("kind", .str "delete"), ("table", .str w.table),
      ("filter", orNull filter w.filter)]
  | .upsert w => .obj (("kind", .str "upsert") :: insertMembers w.insert ++
      [("conflict", texts w.conflict), ("update", texts w.updates)])

def column? : Json → Option ColumnBind
  | .arr [.str c, v, .str t] => (value? v).map fun v => ⟨c, ⟨v, t⟩⟩
  | _ => none

def columns? (j : Json) : Option (List ColumnBind) :=
  (items? "columns" j).bind fun js => js.mapM column?

def insert? (j : Json) : Option Insert := do
  let table ← text? "table" j
  let columns ← columns? j
  let returning ← texts? "returning" j
  some ⟨table, columns, returning⟩

def upsert? (j : Json) : Option Upsert := do
  let insert ← insert? j
  let conflict ← texts? "conflict" j
  let updates ← texts? "update" j
  some ⟨insert, conflict, updates⟩

def update? (j : Json) : Option Update := do
  let table ← text? "table" j
  let sets ← columns? j
  let filter ← filterAt? "filter" j
  some ⟨table, sets, filter⟩

def delete? (j : Json) : Option Delete := do
  let table ← text? "table" j
  let filter ← filterAt? "filter" j
  some ⟨table, filter⟩

def write? (j : Json) : Option Write :=
  match text? "kind" j with
  | some "insert" => (insert? j).map .insert
  | some "update" => (update? j).map .update
  | some "delete" => (delete? j).map .delete
  | some "upsert" => (upsert? j).map .upsert
  | _ => none

/-! ## Statements -/

def prepared (p : Sql.Prepared) : Json := .obj [("sql", .str p.text), ("args", sqlArgs p.args)]

def sqlMembers (s : Sql.Statement) : List (String × Json) :=
  [("sql", .str s.text), ("binds", .arr (s.binds.map bind)), ("exec", .str s.exec.text)]

def sqlStatement? (j : Json) : Option Sql.Statement := do
  let text ← text? "sql" j
  let binds ← (items? "binds" j).bind fun js => js.mapM bind?
  let exec ← (text? "exec" j).bind Sql.ExecKind.ofText?
  some (Sql.Statement.ofText text binds exec)

def sortKey (k : Documents.SortKey) : Json := texts [k.1, k.2.keyword]

def stageBody : Documents.Stage → String × Json
  | .native d => ("raw", document d)
  | .filter d => ("match", document d)
  | .sort keys => ("sort", .arr (keys.map sortKey))
  | .skip n => ("skip", word n)
  | .limit n => ("limit", word n)
  | .count field => ("count", .str field)

def stage (s : Documents.Stage) : Json := .arr [.str s.name, .obj [stageBody s]]

def stages (ss : List Documents.Stage) : Json := .arr (ss.map stage)

def documentStatement (s : Documents.Statement) : Json :=
  .obj [("kind", .str s.command.text), ("collection", .str s.collection),
    ("filter", document s.filter), ("pipeline", stages s.pipeline),
    ("sort", .arr (s.sort.map sortKey)), ("skip", orNull word s.skip),
    ("limit", orNull word s.limit), ("document", orNull document s.document),
    ("dml", orNull write s.write), ("upsert", .bool s.upsert), ("id_hint", optional s.idHint)]

/-- A statement by its documents; a pipeline is in the store's own form. -/
def documentStatement? (j : Json) : Option Documents.Statement := do
  let command ← (text? "kind" j).bind Documents.Command.ofText?
  let collection ← text? "collection" j
  let filter ← documentAt? "filter" j
  let pipeline ← (items? "pipeline" j).bind fun js => js.mapM document?
  let doc ← match member? "document" j with
    | none => some none
    | some d => (document? d).map some
  let hint ← match member? "id_hint" j with
    | none => some none
    | some v => (value? v).map some
  some { Documents.Statement.on command collection with
    filter := filter, pipeline := pipeline.map .native, document := doc, idHint := hint }

end Polystore.Tagged
