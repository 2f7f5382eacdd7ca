import Polystore.Engine.Handle
import Polystore.Engine.Propagation
import Polystore.Settings.Variables
import Polystore.Sql.Dialect
import Polystore.Toml.Reading

/-! # Settings

The settings of an engine, read from TOML. All of them have defaults, and unknown keys are read
over. A section is a table, or a list of its values in order. -/

namespace Polystore
set_option autoImplicit false

inductive Family where
  | sql (d : Sql.Dialect)
  | document
deriving DecidableEq, Repr

def Family.text : Family → String
  | sql d => "sql:" ++ d.name
  | document => "document"

structure Settings where
  dialect : String
  propagation : Propagation
  id : String
  schema : Option String
  multiTenant : Bool
  boundaries : List String

namespace Settings

def default : Settings := ⟨"postgres", .required, "default", none, false, []⟩

/-! ## Reading -/

/-- The values of a section by the names of its fields. -/
def parts? (names : List String) : Toml → Option (List (Option Toml))
  | .table es => some (names.map fun n => es.lookup n)
  | .list items => some (names.mapIdx fun i _ => items[i]?)
  | _ => none

def sectionParts? (names : List String) : Option Toml → Option (List (Option Toml))
  | none => some (names.map fun _ => none)
  | some t => parts? names t

def orDefault {α : Type} (read : Toml → Option α) (missing : α) : Option Toml → Option α
  | none => some missing
  | some t => read t

def text? : Toml → Option String
  | .str s => some s
  | _ => none

def flag? : Toml → Option Bool
  | .bool b => some b
  | _ => none

def texts? : Toml → Option (List String)
  | .list items => items.mapM text?
  | _ => none

def isEmptyPart : Toml → Bool
  | .table es => es.isEmpty
  | .list items => items.isEmpty
  | _ => false

/-- A propagation by its exact name, alone or as the only key of a table. -/
def propagation? : Toml → Option Propagation
  | .str s => Propagation.ofText? s
  | .table [(name, v)] => if isEmptyPart v then Propagation.ofText? name else none
  | _ => none

def ofTables? (es : List (String × Toml)) : Option Settings := do
  match ← sectionParts? ["dialect", "default_propagation"] (es.lookup "engine"),
      ← sectionParts? ["id", "namespace", "multi_tenant"] (es.lookup "handle"),
      ← sectionParts? ["tenant_boundary_keys"] (es.lookup "planner") with
  | [dialect, propagation], [id, schema, multiTenant], [boundaries] =>
    let dialect ← orDefault text? default.dialect dialect
    let propagation ← orDefault propagation? default.propagation propagation
    let id ← orDefault text? default.id id
    let schema ← orDefault (fun t => (text? t).map some) default.schema schema
    let multiTenant ← orDefault flag? default.multiTenant multiTenant
    let boundaries ← orDefault texts? default.boundaries boundaries
    some ⟨dialect, propagation, id, schema, multiTenant, boundaries⟩
  | _, _, _ => none

def parse (s : String) : Except SettingsError Settings :=
  match (Toml.parse? s).bind ofTables? with
  | some r => .ok r
  | none => .error .malformed

/-! ## Meaning -/

def family (s : Settings) : Except SettingsError Family :=
  let name := Text.trim s.dialect
  if Text.sameIgnoringCase name "document" then .ok .document
  else match Sql.Dialect.parse name with
    | .ok d => .ok (.sql d)
    | .error _ => .error (.unsupportedDialect s.dialect)

/-- The handle, with variables in its schema replaced by their values. -/
def handle (env : Variables.Environment) (s : Settings) : Except SettingsError Handle :=
  match Text.nonBlank? s.id with
  | none => .error (.invalid "handle.id must not be blank")
  | some id =>
    match s.schema with
    | none => .ok ⟨id, none, s.multiTenant⟩
    | some schema => (Variables.expand env schema).map fun name =>
        ⟨id, Text.nonBlank? name, s.multiTenant⟩

end Settings
end Polystore
