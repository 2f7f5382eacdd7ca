import Polystore.Engine.Transaction
import Polystore.Query.Normalize
import Polystore.Query.Validation

/-! # Engine operations

Reads are compiled, and writes planned and rendered, before the driver is called. Keys that the
store has made are put back into the payloads when their transaction is over. -/

namespace Polystore.Engine
set_option autoImplicit false

variable {I : Interface} {b : Backend I} {d : Driver I}

/-! ## Resolution -/

/-- The entity and the view of a target, with the schema of the handle. -/
def scope (e : Engine b) (t : Target) : Except Error Scope := do
  let entity ← lift .model (e.model.entity t.entity)
  match entity.views.lookup t.view with
  | none => .error (.model (.unknownView t.view))
  | some v =>
    let v ← lift .planning (v.inSchema e.handle)
    .ok ⟨e.model, entity, v⟩

def filterOf (e : Engine b) (s : Scope) (q : Query) : Except Error (Option Filter) := do
  let f ← lift .planning q.normalize
  lift .validation (e.validation s.entity q f)
  .ok f

/-- The key field that the store is to fill: an automatic single key that the payload leaves open. -/
def openKey? (e : Engine b) (entity : Entity) (p : Payload) : Except PlanningError (Option String) :=
  match entity.singleKey? with
  | none => .ok none
  | some key =>
    if (entity.field? key).any (·.autoGenerated) then do
      e.planner.capabilities.need .accessor entity
      if (p.get key).isNull then
        e.planner.capabilities.need .mutator entity
        .ok (some key)
      else .ok none
    else .ok none

/-! ## Reads -/

def selectRows (e : Engine b) (c : Context) (t : Target) (q : Query) :
    Run d Error (Entity × List Row) := do
  let (s, st) ← Run.ofExcept do
    let s ← e.scope t
    let f ← e.filterOf s q
    let st ← b.compileSelect s f q.sort q.page q.params
    lift .planning (e.planner.capabilities.need .decoder s.entity)
    .ok (s, st)
  let rows ← b.read e.handle (c.txOf? e.id) fun place => b.select s.view place st
  Run.done (s.entity, rows)

def document (e : Engine b) (entity : Entity) (r : Row) : Except Error Document :=
  lift .codec (entity.read e.model b.types r)

def select (e : Engine b) (c : Context) (t : Target) (q : Query) : Run d Error (List Document) := do
  let (entity, rows) ← e.selectRows c t q
  match feed (fun ds r => (e.document entity r).map fun x => ds ++ [x]) [] rows with
  | (ds, .ok ()) => Run.done ds
  | (_, .error err) => Run.fail err

/-- Selects into a type that the decoder of the entity does not make. -/
def selectForeign (e : Engine b) (c : Context) (t : Target) (q : Query) : Run d Error Unit := do
  let (entity, rows) ← e.selectRows c t q
  Run.ofExcept (feed (fun () r => do
    let _ ← e.document entity r
    .error (.planning (.payloadType entity.name))) () rows).2

def count (e : Engine b) (c : Context) (t : Target) (q : Query) : Run d Error UInt64 := do
  let st ← Run.ofExcept do
    let s ← e.scope t
    let f ← e.filterOf s q
    b.compileCount s f q.params
  b.read e.handle (c.txOf? e.id) fun place => b.count place st

/-! ## Creating rows -/

/-- The two writes that make rows. -/
inductive Creation where
  | insert | upsert
deriving DecidableEq, Repr

/-- A statement, and the field for the key that the store makes. -/
structure Planned (b : Backend I) where
  statement : b.Statement
  openKey : Option String

def plan (e : Engine b) (s : Scope) (k : Creation) (p : Payload) : Except Error (Planned b) := do
  let key ← lift .planning (e.openKey? s.entity p)
  let w ← match k with
    | .insert => (e.planner.insert s p key.isSome).map Write.insert
    | .upsert => (e.planner.upsert s p key.isSome).map Write.upsert
  let st ← b.compileWrite s w
  .ok ⟨st, key⟩

def planAll (e : Engine b) (s : Scope) (k : Creation) : List Payload → Except Error (List (Planned b))
  | [] => .ok []
  | p :: ps => do
    let planned ← e.plan s k p
    let rest ← e.planAll s k ps
    .ok (planned :: rest)

def execute (k : Creation) (tx : Nat) (p : Planned b) : Run d Error (Option Value) :=
  Request.sendIf (match k with
    | .insert => b.insert tx p.statement
    | .upsert => b.upsert tx p.statement)

/-- Puts a key into its field, decoded by the type of the field. -/
def writeBack (e : Engine b) (entity : Entity) (field : Option String) (key : Option Value)
    (p : Payload) : Except Error Payload :=
  match field, key with
  | some field, some raw =>
    if raw.isNull then .ok p
    else do
      let typeId := ((entity.field? field).map (·.type.typeId)).getD "json"
      let v ← lift .codec (b.types.decode typeId raw)
      lift .planning (e.planner.capabilities.need .mutator entity)
      lift .planning (p.set entity.name field v)
  | _, _ => .ok p

def writeBackAll (e : Engine b) (entity : Entity) :
    List Payload → List (Planned b) → List (Option Value) → Except Error (List Payload)
  | p :: ps, planned :: rest, key :: keys => do
    let p ← e.writeBack entity planned.openKey key p
    let ps ← e.writeBackAll entity ps rest keys
    .ok (p :: ps)
  | ps, _, _ => .ok ps

def create (e : Engine b) (k : Creation) (c : Context) (t : Target) (p : Payload) :
    Run d Error Payload := do
  let (s, planned) ← Run.ofExcept do
    let s ← e.scope t
    let planned ← e.plan s k p
    .ok (s, planned)
  let key ← e.writing c fun tx => execute k tx planned
  Run.ofExcept (e.writeBack s.entity planned.openKey key p)

/-- Writes payloads in one transaction, all of them planned before the first is written. -/
def createAll (e : Engine b) (k : Creation) (c : Context) (t : Target) (ps : List Payload) :
    Run d Error (List Payload) := do
  let (s, planned) ← Run.ofExcept do
    let s ← e.scope t
    let planned ← e.planAll s k ps
    .ok (s, planned)
  let keys ← e.writing c fun tx => Run.forAll (execute k tx) planned
  Run.ofExcept (e.writeBackAll s.entity ps planned keys)

/-! ## Changing rows -/

def planUpdate (e : Engine b) (s : Scope) (p : Payload) : Except Error b.Statement := do
  let w ← e.planner.updateById s p
  b.compileWrite s (.update w)

def planUpdates (e : Engine b) (s : Scope) : List Payload → Except Error (List b.Statement)
  | [] => .ok []
  | p :: ps => do
    let st ← e.planUpdate s p
    let rest ← e.planUpdates s ps
    .ok (st :: rest)

def executeUpdate (tx : Nat) (st : b.Statement) : Run d Error UInt64 :=
  Request.sendIf (b.update tx st)

def update (e : Engine b) (c : Context) (t : Target) (p : Payload) : Run d Error UInt64 := do
  let st ← Run.ofExcept do
    let s ← e.scope t
    e.planUpdate s p
  e.writing c fun tx => executeUpdate tx st

def updateAll (e : Engine b) (c : Context) (t : Target) (ps : List Payload) : Run d Error UInt64 := do
  let sts ← Run.ofExcept do
    let s ← e.scope t
    e.planUpdates s ps
  let counts ← e.writing c fun tx => Run.forAll (executeUpdate tx) sts
  Run.done (counts.foldl (· + ·) 0)

def updateWhere (e : Engine b) (c : Context) (t : Target) (p : Payload) (q : Query) :
    Run d Error UInt64 := do
  let st ← Run.ofExcept do
    let s ← e.scope t
    let f ← e.filterOf s q
    let w ← e.planner.update s p f
    b.compileWrite s (.update w)
  e.writing c fun tx => executeUpdate tx st

def deleteWhere (e : Engine b) (c : Context) (t : Target) (q : Query) : Run d Error UInt64 := do
  let st ← Run.ofExcept do
    let s ← e.scope t
    let f ← e.filterOf s q
    let w ← Planner.delete s f
    b.compileWrite s (.delete w)
  e.writing c fun tx => Request.sendIf (b.delete tx st)

end Polystore.Engine
