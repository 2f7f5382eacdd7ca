import Mathlib.Data.List.Pairwise
import Polystore.Documents.Writing
import Polystore.Proofs.Outcome
import Polystore.Proofs.Types.TypeIds
import Polystore.Proofs.Value.Paths
import Polystore.Write.Planner

/-! # Properties of documents

The properties that a document is read for are the fields of its entity, and in place of references
the fields of the entities that they name. Where no two of them are stored in each other's way, an
insert binds each property that the payload has at the path of this property, and nothing else. -/

namespace Polystore
set_option autoImplicit false

/-! ## Mapped paths -/

/-- A nested mapping places the child of a field. -/
theorem View.explicitRef?_child {v : View} (hundotted : ∀ e ∈ v.mapping, '.' ∉ e.1.toList)
    {parent child target : String} {m c : Mapping} (hm : v.mapping.lookup parent = some m)
    (hc : m.fields.lookup child = some c) (htarget : c.target? = some target) :
    v.explicitRef? (parent ++ "." ++ child) = some target := by
  have hnone : v.mapping.lookup (parent ++ "." ++ child) = none := by
    rw [List.lookup_eq_none_iff]
    intro e he
    rw [bne_iff_ne]
    intro heq
    have hdot : '.' ∈ (parent ++ "." ++ child).toList := by
      rw [String.toList_append, String.toList_append]
      exact List.mem_append_left _ (List.mem_append_right _ (List.mem_singleton_self '.'))
    rw [heq] at hdot
    exact hundotted e he hdot
  have hparent : '.' ∉ parent.toList := hundotted (parent, m) (Entries.mem_of_lookup hm)
  unfold View.explicitRef?
  rw [hnone, splitOnce?_dot hparent]
  simp only [Option.bind_none, Option.bind_eq_bind, Option.bind_some, hm, hc, htarget]

namespace Documents

/-! ## Properties -/

/-- A field of an entity, or a field of the entity that one of its references names. -/
structure Property where
  field : String
  child : Option String
  type : TypeRef

namespace Property

def name (a : Property) : String :=
  match a.child with
  | none => a.field
  | some child => a.field ++ "." ++ child

def path (a : Property) (v : View) : String := pathOf v a.name

/-- The value of a property as an insert binds it. -/
def bound (a : Property) (v : View) (x : Value) : ColumnBind := ⟨a.path v, ⟨x, a.type.typeId⟩⟩

/-- The value that a payload has for a property. Nulls of the entity itself are values; a child is
left out if it is null or has no place in the view. -/
def value? (a : Property) (s : Scope) (payload : Payload) : Option Value :=
  match a.child with
  | none => payload.find? a.field
  | some child => do
    let m ← s.view.mapping.lookup a.field
    let _ ← (m.fields.lookup child).bind Mapping.target?
    let inner ← payload.child? a.field
    (inner.find? child).bind nonNull

end Property

def fieldProperties (m : Model) (name : String) (f : Field) : List Property :=
  match f.type with
  | .ref target => (Entity.childFields m target).map fun c => ⟨name, some c.1, c.2.type⟩
  | t => [⟨name, none, t⟩]

/-- The properties that a document is read for. -/
def properties (s : Scope) : List Property :=
  s.entity.fields.flatMap fun f => fieldProperties s.model f.1 f.2

/-- The fields of an entity can be told apart in its documents: the view maps its own fields, the
mappings are keyed, references are not stored as one value, and no property is stored where another
one leads to or under the key of the store. All of them have stored types. -/
structure Legible (s : Scope) : Prop where
  undotted : ∀ e ∈ s.view.mapping, '.' ∉ e.1.toList
  keyed : ∀ e ∈ s.view.mapping, (e.2.fields.map (·.1)).Nodup
  known : ∀ f ∈ s.entity.fields, ∀ target, f.2.type = .ref target →
    ∀ m, s.view.mapping.lookup f.1 = some m → ∀ e, s.model.entities.lookup target = some e →
      ∀ c ∈ m.fields, ∃ g, e.field? c.1 = some g
  structured : ∀ f ∈ s.entity.fields, Entity.isRef f.2.type = true →
    Row.isBlob s.view (Row.withoutEndDots (f.1 ++ ".")) = false
  apart : (properties s).Pairwise fun a b => Apart (a.path s.view) (b.path s.view)
  idKept : ∀ a ∈ properties s, (segments (a.path s.view)).head? = some idField →
    a.child = none ∧ s.entity.singleKey? = some a.field
  storable : ∀ a ∈ properties s, ∃ u, Storable a.type u

section
variable {s : Scope} {payload : Payload} {a b : Property}

/-- Two properties have paths that lead to different places, or are one. -/
theorem Legible.eq_or_apart (h : Legible s) (ha : a ∈ properties s) (hb : b ∈ properties s) :
    a = b ∨ Apart (a.path s.view) (b.path s.view) := by
  have hsymm : Std.Symm fun a b : Property => Apart (a.path s.view) (b.path s.view) :=
    ⟨fun _ _ => Apart.symm⟩
  by_cases heq : a = b
  · exact .inl heq
  · exact .inr (h.apart.forall ha hb heq)

/-! ## Columns of an insert -/

theorem fieldColumn_eq {p : Planner} (hp : p.policy = .explicit) (name : String) (f : Field) :
    let a : Property := ⟨name, none, f.type⟩
    p.fieldColumn s payload name f = ((a.value? s payload).map (a.bound s.view)).toList := by
  have hcolumn : p.column s name = pathOf s.view name := by
    unfold Planner.column
    rw [hp]
    rfl
  unfold Planner.fieldColumn Property.value? Payload.get Payload.isExplicitNull
  dsimp only
  rw [hcolumn]
  cases hfind : payload.find? name with
  | none => rfl
  | some v => cases v <;> rfl

theorem nonNull_eq_some {v w : Value} : nonNull v = some w ↔ v = w ∧ w.isNull = false := by
  cases v <;> simp [nonNull, Value.isNull] <;> rintro rfl <;> rfl

theorem childValue_eq_some {name child : String} {t : TypeRef} {v : Value} :
    Property.value? ⟨name, some child, t⟩ s payload = some v ↔
      ∃ m c target inner, s.view.mapping.lookup name = some m ∧ m.fields.lookup child = some c ∧
        c.target? = some target ∧ payload.child? name = some inner ∧ inner.find? child = some v ∧
        v.isNull = false := by
  simp only [Property.value?, Option.bind_eq_bind, Option.bind_eq_some_iff, nonNull_eq_some]
  constructor
  · rintro ⟨m, hm, target, ⟨c, hc, htarget⟩, inner, hinner, x, hx, rfl, hnull⟩
    exact ⟨m, c, target, inner, hm, hc, htarget, hinner, hx, hnull⟩
  · rintro ⟨m, c, target, inner, hm, hc, htarget, hinner, hx, hnull⟩
    exact ⟨m, hm, target, ⟨c, hc, htarget⟩, inner, hinner, v, hx, rfl, hnull⟩

theorem childColumn_eq_some {e : Entity} {inner : Payload} {child : String} {m : Mapping}
    {c : ColumnBind} : Planner.childColumn e inner child m = some c ↔
      ∃ target v, m.target? = some target ∧ inner.find? child = some v ∧ v.isNull = false ∧
        c = ⟨target, Planner.bindFor (e.field? child) v⟩ := by
  unfold Planner.childColumn Payload.get
  cases m.target? with
  | none => simp
  | some target =>
    cases hfind : inner.find? child with
    | none => simp [Value.isNull]
    | some v =>
      cases hnull : v.isNull with
      | true => simp [hnull]
      | false =>
        simp only [Option.getD_some, hnull, Bool.false_eq_true, if_false, Option.some.injEq]
        constructor
        · rintro rfl
          exact ⟨target, v, rfl, rfl, hnull, rfl⟩
        · rintro ⟨-, -, rfl, rfl, -, rfl⟩
          rfl

theorem nestedColumns_eq_ok {p : Planner} {name target : String} {cs : List ColumnBind}
    (h : p.nestedColumns s payload name target = .ok cs) {m : Mapping} {inner : Payload}
    (hm : s.view.mapping.lookup name = some m) (hfields : m.fields ≠ [])
    (hinner : payload.child? name = some inner) :
    ∃ e, s.model.entities.lookup target = some e ∧
      cs = m.fields.filterMap fun c => Planner.childColumn e inner c.1 c.2 := by
  have hnested : (s.view.mapping.lookup name).bind Mapping.nested? = some m.fields := by
    rw [hm, Option.bind_some, Mapping.nested?, if_neg (by rwa [List.isEmpty_iff])]
  unfold Planner.nestedColumns at h
  rw [hnested, hinner] at h
  obtain ⟨e, he, h⟩ := bind_eq_ok.mp h
  obtain ⟨-, -, h⟩ := bind_eq_ok.mp h
  cases h
  refine ⟨e, ?_, rfl⟩
  have hentity := lift_eq_ok.mp he
  unfold Model.entity at hentity
  split at hentity
  · rename_i hlookup
    cases hentity
    exact hlookup
  · cases hentity

theorem nestedColumns_eq_nil {p : Planner} {name target : String} {cs : List ColumnBind}
    (h : p.nestedColumns s payload name target = .ok cs) {c : ColumnBind} (hc : c ∈ cs) :
    ∃ m inner, s.view.mapping.lookup name = some m ∧ m.fields ≠ [] ∧
      payload.child? name = some inner := by
  unfold Planner.nestedColumns at h
  split at h
  · rename_i children inner hnested hinner
    obtain ⟨m, hm, hfields⟩ := Option.bind_eq_some_iff.mp hnested
    refine ⟨m, inner, hm, ?_, hinner⟩
    rintro hnil
    rw [Mapping.nested?, hnil] at hfields
    cases hfields
  · cases h
    cases hc

theorem fieldProperties_ref {m : Model} {name target : String} {f : Field}
    (h : f.type = .ref target) : fieldProperties m name f =
      (Entity.childFields m target).map fun c => ⟨name, some c.1, c.2.type⟩ := by
  unfold fieldProperties
  rw [h]

theorem fieldProperties_plain {m : Model} {name : String} {f : Field}
    (h : ∀ target, f.type ≠ .ref target) : fieldProperties m name f = [⟨name, none, f.type⟩] := by
  unfold fieldProperties
  split
  · exact absurd ‹_› (h _)
  · rfl

theorem mem_properties {name : String} {f : Field} (hf : (name, f) ∈ s.entity.fields)
    (ha : a ∈ fieldProperties s.model name f) : a ∈ properties s :=
  List.mem_flatMap.mpr ⟨(name, f), hf, ha⟩

/-- A child in a nested mapping that is not bound as a reference is a property. -/
theorem Legible.childColumn_bound (h : Legible s) {name target child column : String} {f : Field}
    (hf : (name, f) ∈ s.entity.fields) (htype : f.type = .ref target) {m mc : Mapping} {e : Entity}
    {inner : Payload} {v : Value} (hm : s.view.mapping.lookup name = some m)
    (he : s.model.entities.lookup target = some e) (hinner : payload.child? name = some inner)
    (hmc : (child, mc) ∈ m.fields) (hcolumn : mc.target? = some column)
    (hv : inner.find? child = some v) (hnull : v.isNull = false)
    (href : (Planner.bindFor (e.field? child) v).typeId ≠ "ref") :
    ∃ t, ⟨name, some child, t⟩ ∈ fieldProperties s.model name f ∧
      Property.value? ⟨name, some child, t⟩ s payload = some v ∧
      ⟨column, Planner.bindFor (e.field? child) v⟩ =
        Property.bound ⟨name, some child, t⟩ s.view v := by
  obtain ⟨g, hg⟩ := h.known (name, f) hf target htype m hm e he (child, mc) hmc
  rw [hg] at href
  have hlookup : m.fields.lookup child = some mc :=
    Entries.lookup_of_mem (h.keyed _ (Entries.mem_of_lookup hm)) hmc
  have hpath : Property.path ⟨name, some child, g.type⟩ s.view = column := by
    show (s.view.explicitRef? (name ++ "." ++ child)).getD _ = column
    rw [View.explicitRef?_child h.undotted hm hlookup hcolumn, Option.getD_some]
  have hplain : Entity.isRef g.type = false := by
    cases ht : g.type with
    | ref entity => exact absurd (by rw [Planner.bindFor, ht]; rfl) href
    | _ => rfl
  refine ⟨g.type, ?_, ?_, ?_⟩
  · rw [fieldProperties_ref htype, Entity.childFields, he]
    exact List.mem_map.mpr ⟨(child, g), List.mem_filter.mpr
      ⟨Entries.mem_of_lookup hg, by rw [hplain]; rfl⟩, rfl⟩
  · exact childValue_eq_some.mpr ⟨m, mc, column, inner, hm, hlookup, hcolumn, hinner, hv, hnull⟩
  · rw [hg, Property.bound, hpath]
    rfl

/-- The columns of a reference are the children that the payload has for it. -/
theorem Legible.mem_nestedColumns (h : Legible s) {p : Planner} {name target : String} {f : Field}
    (hf : (name, f) ∈ s.entity.fields) (htype : f.type = .ref target) {cs : List ColumnBind}
    (hcs : p.nestedColumns s payload name target = .ok cs)
    (htyped : ∀ c ∈ cs, c.bind.typeId ≠ "ref") {c : ColumnBind} :
    c ∈ cs ↔ ∃ a ∈ fieldProperties s.model name f, ∃ v, a.value? s payload = some v ∧
      c = a.bound s.view v := by
  constructor
  · intro hc
    obtain ⟨m, inner, hm, hfields, hinner⟩ := nestedColumns_eq_nil hcs hc
    obtain ⟨e, he, rfl⟩ := nestedColumns_eq_ok hcs hm hfields hinner
    have href := htyped c hc
    obtain ⟨⟨child, mc⟩, hmc, hbind⟩ := List.mem_filterMap.mp hc
    obtain ⟨column, v, hcolumn, hv, hnull, rfl⟩ := childColumn_eq_some.mp hbind
    obtain ⟨t, ht, hvalue, hbound⟩ :=
      h.childColumn_bound hf htype hm he hinner hmc hcolumn hv hnull href
    exact ⟨_, ht, v, hvalue, hbound⟩
  · rintro ⟨a, ha, v, hvalue, rfl⟩
    have ha' := ha
    rw [fieldProperties_ref htype] at ha'
    obtain ⟨⟨child, f'⟩, -, rfl⟩ := List.mem_map.mp ha'
    obtain ⟨m, mc, column, inner, hm, hlookup, hcolumn, hinner, hv, hnull⟩ :=
      childValue_eq_some.mp hvalue
    have hmc := Entries.mem_of_lookup hlookup
    obtain ⟨e, he, rfl⟩ := nestedColumns_eq_ok hcs hm (List.ne_nil_of_mem hmc) hinner
    have hc : (⟨column, Planner.bindFor (e.field? child) v⟩ : ColumnBind) ∈
        m.fields.filterMap fun c => Planner.childColumn e inner c.1 c.2 :=
      List.mem_filterMap.mpr
        ⟨(child, mc), hmc, childColumn_eq_some.mpr ⟨column, v, hcolumn, hv, hnull, rfl⟩⟩
    obtain ⟨t, ht, -, hbound⟩ :=
      h.childColumn_bound hf htype hm he hinner hmc hcolumn hv hnull (htyped _ hc)
    -- Of two fields with the name of the child only one has a property.
    have hsame := h.eq_or_apart (mem_properties hf ha) (mem_properties hf ht)
    rw [hsame.resolve_right fun hapart => not_apart_self _ hapart, ← hbound]
    exact hc

theorem Legible.mem_columnsOf (h : Legible s) {p : Planner} (hp : p.policy = .explicit)
    {name : String} {f : Field} (hf : (name, f) ∈ s.entity.fields) {cs : List ColumnBind}
    (hcs : p.columnsOf s payload name f = .ok cs) (htyped : ∀ c ∈ cs, c.bind.typeId ≠ "ref")
    {c : ColumnBind} : c ∈ cs ↔ ∃ a ∈ fieldProperties s.model name f, ∃ v,
      a.value? s payload = some v ∧ c = a.bound s.view v := by
  unfold Planner.columnsOf at hcs
  split at hcs
  · rename_i target htype
    exact h.mem_nestedColumns hf htype hcs htyped
  · rename_i hplain
    cases hcs
    rw [fieldProperties_plain hplain, fieldColumn_eq hp name f]
    simp only [Option.mem_toList, Option.map_eq_some_iff, List.mem_singleton, exists_eq_left]
    exact exists_congr fun v => and_congr_right' eq_comm

/-- An insert binds each property that the payload has at its path, and nothing else. -/
theorem Legible.mem_columns (h : Legible s) {p : Planner} (hp : p.policy = .explicit)
    {fields : List (String × Field)} (hfields : ∀ f ∈ fields, f ∈ s.entity.fields)
    {cs : List ColumnBind} (hcs : p.columnsOfAll s payload fields = .ok cs)
    (htyped : ∀ c ∈ cs, c.bind.typeId ≠ "ref") {c : ColumnBind} :
    c ∈ cs ↔ ∃ a ∈ fields.flatMap fun f => fieldProperties s.model f.1 f.2, ∃ v,
      a.value? s payload = some v ∧ c = a.bound s.view v := by
  induction fields generalizing cs with
  | nil =>
    cases hcs
    exact iff_of_false List.not_mem_nil fun ⟨_, ha, _⟩ => List.not_mem_nil ha
  | cons f fields ih =>
    obtain ⟨first, hfirst, hcs⟩ := bind_eq_ok.mp hcs
    obtain ⟨rest, hrest, hcs⟩ := bind_eq_ok.mp hcs
    cases hcs
    obtain ⟨htyped, htypedRest⟩ := List.forall_mem_append.mp htyped
    obtain ⟨hf, hfields⟩ := List.forall_mem_cons.mp hfields
    rw [List.mem_append, h.mem_columnsOf hp hf hfirst htyped, ih hfields hrest htypedRest,
      List.flatMap_cons]
    simp only [List.mem_append, or_and_right, exists_or]

end

end Documents
end Polystore
