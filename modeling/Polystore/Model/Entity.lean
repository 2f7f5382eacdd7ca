import Polystore.Model.TypeRef
import Polystore.Model.View

/-! # Entities -/

namespace Polystore
set_option autoImplicit false

inductive EntityKind where
  /-- Backed by a table or collection. -/
  | entity
  /-- Embedded, without a source of its own. -/
  | value
deriving DecidableEq, Repr

def EntityKind.text : EntityKind → String
  | entity => "ENTITY"
  | value => "VALUE"

structure Field where
  type : TypeRef
  key : Bool
  autoGenerated : Bool
  attrs : Entries Json

namespace Field

def ofType (t : TypeRef) : Field := ⟨t, false, false, []⟩

def governanceAttr : String := "governanceKey"

def governanceKey? : Json → Option String
  | .null => none
  | .str s => Text.nonBlank? s
  | j => Text.nonBlank? j.text

/-- The boundaries a field is governed by: one text or a list of them. -/
def governanceKeys (f : Field) : List String :=
  match f.attrs.lookup governanceAttr with
  | none => []
  | some (.arr items) => items.filterMap governanceKey?
  | some j => (governanceKey? j).toList

def sameAttrs : Entries Json → Entries Json → Bool
  | [], [] => true
  | (k, a) :: as, (l, b) :: bs => k == l && a.same b && sameAttrs as bs
  | _, _ => false

def same (a b : Field) : Bool :=
  a.type == b.type && a.key == b.key && a.autoGenerated == b.autoGenerated &&
    sameAttrs a.attrs b.attrs

end Field

/-- An entity: fields in the order of declaration, and views by id. -/
structure Entity where
  name : String
  kind : EntityKind
  sourceText : Option String
  fields : List (String × Field)
  views : Entries View

namespace Entity

def field? (e : Entity) (name : String) : Option Field := e.fields.lookup name

def fieldType? (e : Entity) (name : String) : Option TypeRef :=
  match e.field? name with
  | some f => some f.type
  | none => none

def keyFields (e : Entity) : List String := (e.fields.filter (·.2.key)).map (·.1)

/-- The only key field; none for a composite or missing key. -/
def singleKey? (e : Entity) : Option String :=
  match e.keyFields with
  | [k] => some k
  | _ => none

/-- The table or collection, unless it is blank. -/
def source? (e : Entity) : Option String := e.sourceText.filter (!Text.isBlankText ·)

def check (e : Entity) : Except ModelError Unit :=
  if e.kind == .entity && e.source?.isNone then .error (.missingSource e.name) else .ok ()

def sameFields : List (String × Field) → List (String × Field) → Bool
  | [], [] => true
  | (k, a) :: as, (l, b) :: bs => k == l && a.same b && sameFields as bs
  | _, _ => false

def sameViews : Entries View → Entries View → Bool
  | [], [] => true
  | (k, a) :: as, (l, b) :: bs => k == l && a.same b && sameViews as bs
  | _, _ => false

def same (a b : Entity) : Bool :=
  a.name == b.name && a.kind == b.kind && a.sourceText == b.sourceText &&
    sameFields a.fields b.fields && sameViews a.views b.views

end Entity
end Polystore
