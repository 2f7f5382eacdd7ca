import Polystore.Documents.Compile

/-! # Document writes

Planned writes as documents to insert and documents that say how to update. -/

namespace Polystore.Documents
set_option autoImplicit false

def idField : String := "_id"

def keyPath? (s : Scope) : Option String := s.entity.singleKey?.map (pathOf s.view)

def nonNull (v : Value) : Option Value := if v.isNull then none else some v

/-! ## Inserts -/

def placeAll (op : BindOp) : List ColumnBind → Document → Except Error Document
  | [], d => .ok d
  | c :: cs, d => do
    let d ← place op c.column c.bind d
    placeAll op cs d

/-- A single key under another path is the `_id` too, unless there is one. -/
def withId (key : Option String) (d : Document) : Document :=
  match key with
  | none => d
  | some path =>
    if path == idField || Entries.hasKey idField d then d
    else match (Document.at? d path).bind nonNull with
      | some id => Entries.insert idField id d
      | none => d

def insertDocument (s : Scope) (w : Insert) : Except Error Document :=
  (placeAll .insert w.columns []).map (withId (keyPath? s))

def insert (s : Scope) (w : Insert) : Except Error Statement := do
  if w.columns.isEmpty then throw (.planning (.emptyInsert w.table))
  let d ← insertDocument s w
  return { Statement.on .insertOne w.table with
    document := some d,
    idHint := ((keyPath? s).bind w.column?).bind fun c => nonNull c.bind.value }

/-! ## Updates -/

def whereDocument (s : Scope) (filter : Option Filter) : Except Error Document :=
  (predicate? s filter).map (·.getD [])

/-- The stored values of columns by their paths, over those in the document. -/
def storeAll (op : BindOp) : List ColumnBind → Document → Except Error Document
  | [], d => .ok d
  | c :: cs, d => do
    let v ← stored op c.column c.bind
    storeAll op cs (Entries.insert c.column v d)

def updateDocument (w : Update) : Except Error Document := do
  if w.sets.isEmpty then throw (.planning (.emptyUpdate w.table))
  let d ← storeAll .updateSet w.sets []
  return entry "$set" (.map d)

def update (s : Scope) (w : Update) : Except Error Statement := do
  let d ← updateDocument w
  let filter ← whereDocument s w.filter
  .ok { Statement.on .updateMany w.table with document := some d, filter := filter }

def delete (s : Scope) (w : Delete) : Except Error Statement :=
  (whereDocument s w.filter).map fun filter => { Statement.on .deleteMany w.table with filter := filter }

/-! ## Upserts -/

/-- The key that a conflict column brings; a later one takes the place of an earlier one. -/
def hintOf (key : Option String) (c : ColumnBind) (hint : Option Value) : Option Value :=
  if c.column == idField || key == some c.column then nonNull c.bind.value else hint

/-- The document that matches the conflict columns, and the key. -/
def conflictFilter (w : Insert) (key : Option String) :
    List String → Document × Option Value → Except Error (Document × Option Value)
  | [], r => .ok r
  | name :: names, (d, hint) =>
    match w.column? name with
    | none => .error (.planning (.unknownConflictColumn name))
    | some c => do
      let v ← stored .upsertFilter name c.bind
      conflictFilter w key names (Entries.insert name v d, hintOf key c hint)

/-- A new document has its single key as `_id` too, unless that is written otherwise. -/
def newId (key : Option String) (filter sets news : Document) : Document :=
  match key with
  | none => news
  | some path =>
    if path == idField || Entries.hasKey idField sets || Entries.hasKey idField news then news
    else match (filter.lookup path).or (news.lookup path) with
      | some id => Entries.insert idField id news
      | none => news

def updatePart (key : String) (d : Document) : Document :=
  if d.isEmpty then [] else entry key (.map d)

def upsert (s : Scope) (w : Upsert) : Except Error Statement := do
  if w.conflict.isEmpty then throw (.planning (.noConflictColumns w.insert.table))
  let key := keyPath? s
  let (filter, hint) ← conflictFilter w.insert key w.conflict ([], none)
  let sets ← storeAll .upsertSet (w.updates.filterMap w.insert.column?) []
  let others := w.insert.columns.filter fun c => !Entries.hasKey c.column sets
  let news ← storeAll .insert others []
  let news := newId key filter sets news
  return { Statement.on .updateOne w.insert.table with
    filter := filter, document := some (updatePart "$set" sets ++ updatePart "$setOnInsert" news),
    upsert := true, idHint := hint }

def documents (s : Scope) : Write → Except Error Statement
  | .insert w => insert s w
  | .update w => update s w
  | .delete w => delete s w
  | .upsert w => upsert s w

def write (s : Scope) (w : Write) : Except Error Statement :=
  (documents s w).map fun st => { st with write := some w }

end Polystore.Documents
