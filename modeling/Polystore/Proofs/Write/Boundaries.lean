import Polystore.Proofs.Outcome
import Polystore.Write.Planner

/-! # Boundaries of updates

The columns of keys and of the fields that bind a row to its tenant say which row it is. An upsert
leaves them out of its update by their names. An update leaves out the fields and not the columns,
so it writes such a column exactly when another field of the payload is mapped to it: under an
alias, or through the nested mappings of a reference. -/

namespace Polystore
set_option autoImplicit false

def Update.columnNames (u : Update) : List String := u.sets.map (·.column)

namespace Planner

/-- The mapped columns of the fields that inserts alone write. -/
def boundColumns (p : Planner) (s : Scope) : List String :=
  (s.entity.fields.filter fun f => p.isFixed f.2).map fun f => p.column s f.1

/-- The columns that a field of a payload is written to. -/
inductive Fills (p : Planner) (s : Scope) (payload : Payload) (name : String) (f : Field) :
    String → Prop
  | own (plain : Entity.isRef f.type = false)
      (given : (payload.get name).isNull = false ∨ payload.isExplicitNull name = true) :
      Fills p s payload name f (p.column s name)
  | nested {target childName column : String} {children : Entries Mapping} {child : Payload}
      {m : Mapping} (reference : f.type = .ref target)
      (mapped : (s.view.mapping.lookup name).bind Mapping.nested? = some children)
      (held : payload.child? name = some child) (mem : (childName, m) ∈ children)
      (placed : m.target? = some column) (given : (child.get childName).isNull = false) :
      Fills p s payload name f column

section
variable {p : Planner} {s : Scope} {payload : Payload} {name c : String} {f : Field}

/-! ## Columns of one field -/

theorem mem_fieldColumn : c ∈ (p.fieldColumn s payload name f).map (·.column) ↔
    c = p.column s name ∧
      ((payload.get name).isNull = false ∨ payload.isExplicitNull name = true) := by
  unfold fieldColumn
  cases hnull : (payload.get name).isNull with
  | false =>
    simp only [hnull, Bool.false_and, Bool.false_eq_true, if_false, List.map_cons, List.map_nil,
      List.mem_singleton, true_or, and_true]
  | true =>
    cases hexplicit : payload.isExplicitNull name with
    | false => simp [hnull]
    | true =>
      simp only [hnull, Bool.not_true, Bool.and_false, Bool.false_eq_true, if_false, List.map_cons,
        List.map_nil, List.mem_singleton, or_true, and_true]

theorem childColumn_column {e : Entity} {child : Payload} {m : Mapping} :
    (childColumn e child name m).map (·.column) = some c ↔
      m.target? = some c ∧ (child.get name).isNull = false := by
  unfold childColumn
  cases htarget : m.target? with
  | none => simp
  | some column =>
    dsimp only
    cases hnull : (child.get name).isNull with
    | false =>
      rw [if_neg Bool.false_ne_true, Option.map_some]
      simp only [and_true]
    | true =>
      rw [if_pos rfl, Option.map_none]
      simp only [reduceCtorEq, and_false]

theorem nestedColumns_columns {target : String} {cs : List ColumnBind}
    (h : p.nestedColumns s payload name target = .ok cs) :
    c ∈ cs.map (·.column) ↔ ∃ children child childName m,
      (s.view.mapping.lookup name).bind Mapping.nested? = some children ∧
      payload.child? name = some child ∧ (childName, m) ∈ children ∧
      m.target? = some c ∧ (child.get childName).isNull = false := by
  unfold nestedColumns at h
  split at h
  · rename_i children child hmapped hheld
    obtain ⟨e, -, he⟩ := bind_eq_ok.mp h
    obtain ⟨-, -, hcs⟩ := bind_eq_ok.mp he
    cases hcs
    have hmem : c ∈ (children.filterMap fun x => childColumn e child x.1 x.2).map (·.column) ↔
        ∃ childName m, (childName, m) ∈ children ∧
          m.target? = some c ∧ (child.get childName).isNull = false := by
      simp only [List.mem_map, List.mem_filterMap, Prod.exists]
      constructor
      · rintro ⟨bind, ⟨childName, m, hmem, hbind⟩, rfl⟩
        exact ⟨childName, m, hmem, childColumn_column.mp (by rw [hbind]; rfl)⟩
      · rintro ⟨childName, m, hmem, hplaced⟩
        obtain ⟨bind, hbind, hc⟩ := Option.map_eq_some_iff.mp (childColumn_column.mpr hplaced)
        exact ⟨bind, ⟨childName, m, hmem, hbind⟩, hc⟩
    rw [hmem, hmapped, hheld]
    constructor
    · rintro ⟨childName, m, hrest⟩
      exact ⟨children, child, childName, m, rfl, rfl, hrest⟩
    · rintro ⟨_, _, childName, m, hchildren, hchild, hrest⟩
      cases hchildren
      cases hchild
      exact ⟨childName, m, hrest⟩
  · rename_i hnone
    cases h
    simp only [List.map_nil, List.not_mem_nil, false_iff]
    rintro ⟨children, child, -, -, hmapped, hheld, -⟩
    exact hnone children child hmapped hheld

theorem columnsOf_plain (hplain : Entity.isRef f.type = false) :
    p.columnsOf s payload name f = .ok (p.fieldColumn s payload name f) := by
  unfold columnsOf
  split
  · rename_i target htype
    simp [htype, Entity.isRef] at hplain
  · rfl

theorem columnsOf_columns {cs : List ColumnBind} (h : p.columnsOf s payload name f = .ok cs) :
    c ∈ cs.map (·.column) ↔ Fills p s payload name f c := by
  cases href : Entity.isRef f.type with
  | true =>
    obtain ⟨target, htype⟩ : ∃ target, f.type = .ref target := by
      cases ht : f.type <;> simp_all [Entity.isRef]
    rw [columnsOf, htype] at h
    rw [nestedColumns_columns h]
    constructor
    · rintro ⟨children, child, childName, m, hmapped, hheld, hmem, hplaced, hgiven⟩
      exact .nested htype hmapped hheld hmem hplaced hgiven
    · intro hfills
      cases hfills with
      | own plain => rw [plain] at href; cases href
      | nested _ mapped held mem placed given =>
        exact ⟨_, _, _, _, mapped, held, mem, placed, given⟩
  | false =>
    cases (columnsOf_plain href).symm.trans h
    rw [mem_fieldColumn]
    constructor
    · rintro ⟨rfl, hgiven⟩
      exact .own href hgiven
    · intro hfills
      cases hfills with
      | own _ given => exact ⟨rfl, given⟩
      | nested reference => rw [reference] at href; cases href

/-! ## Columns of a payload -/

theorem columnsOfAll_columns {fields : List (String × Field)} {cs : List ColumnBind}
    (h : p.columnsOfAll s payload fields = .ok cs) :
    c ∈ cs.map (·.column) ↔ ∃ x ∈ fields, Fills p s payload x.1 x.2 c := by
  induction fields generalizing cs with
  | nil =>
    cases h
    simp
  | cons x fields ih =>
    obtain ⟨first, hfirst, hnext⟩ := bind_eq_ok.mp h
    obtain ⟨rest, hrest, hcs⟩ := bind_eq_ok.mp hnext
    cases hcs
    rw [List.map_append, List.mem_append, columnsOf_columns hfirst, ih hrest]
    simp only [List.mem_cons, exists_eq_or_imp]

theorem updateColumns_columns {cs : List ColumnBind} (h : p.updateColumns s payload = .ok cs) :
    c ∈ cs.map (·.column) ↔
      ∃ x ∈ s.entity.fields, p.isFixed x.2 = false ∧ Fills p s payload x.1 x.2 c := by
  obtain ⟨-, -, hcs⟩ := bind_eq_ok.mp h
  rw [columnsOfAll_columns hcs]
  simp only [List.mem_filter, Bool.not_eq_true', and_assoc]

theorem insert_columns {returning : Bool} {w : Insert}
    (h : p.insert s payload returning = .ok w) :
    c ∈ w.columnNames ↔ ∃ x ∈ s.entity.fields, Fills p s payload x.1 x.2 c := by
  obtain ⟨table, -, htable⟩ := bind_eq_ok.mp h
  obtain ⟨columns, hcolumns, hw⟩ := bind_eq_ok.mp htable
  cases hw
  obtain ⟨-, -, hcs⟩ := bind_eq_ok.mp hcolumns
  exact columnsOfAll_columns hcs

/-! ## Bound columns -/

theorem keyColumns_single (h : s.entity.singleKey? = some name) :
    p.keyColumns s = [p.column s name] := by
  unfold Entity.singleKey? at h
  split at h
  · rename_i k hkeys
    cases h
    rw [keyColumns, hkeys, List.map_singleton]
  · cases h

theorem mem_boundColumns :
    c ∈ p.boundColumns s ↔ c ∈ p.keyColumns s ∨ c ∈ p.governedColumns s := by
  simp only [boundColumns, keyColumns, governedColumns, Entity.keyFields, isFixed, List.map_map,
    List.mem_map, List.mem_filter, Bool.or_eq_true, Function.comp_apply]
  constructor
  · rintro ⟨x, ⟨hmem, hkey | hgoverned⟩, rfl⟩
    · exact .inl ⟨x, ⟨hmem, hkey⟩, rfl⟩
    · exact .inr ⟨x, ⟨hmem, hgoverned⟩, rfl⟩
  · rintro (⟨x, ⟨hmem, hkey⟩, rfl⟩ | ⟨x, ⟨hmem, hgoverned⟩, rfl⟩)
    · exact ⟨x, ⟨hmem, .inl hkey⟩, rfl⟩
    · exact ⟨x, ⟨hmem, .inr hgoverned⟩, rfl⟩

theorem upsert_updates {returning : Bool} {w : Upsert}
    (h : p.upsert s payload returning = .ok w) :
    c ∈ w.updates ↔
      c ∉ p.boundColumns s ∧ ∃ x ∈ s.entity.fields, Fills p s payload x.1 x.2 c := by
  obtain ⟨i, hi, hw⟩ := bind_eq_ok.mp h
  cases hw
  have hfree : (!((p.keyColumns s).contains c || (p.governedColumns s).contains c)) = true ↔
      c ∉ p.boundColumns s := by
    rw [mem_boundColumns]
    simp
  rw [List.mem_filter, insert_columns hi, hfree, and_comm]

theorem updateById_columns {u : Update} (h : p.updateById s payload = .ok u) :
    c ∈ u.columnNames ↔
      ∃ x ∈ s.entity.fields, p.isFixed x.2 = false ∧ Fills p s payload x.1 x.2 c := by
  obtain ⟨table, -, hkey⟩ := bind_eq_ok.mp h
  obtain ⟨key, -, hcolumns⟩ := bind_eq_ok.mp hkey
  obtain ⟨sets, hsets, hu⟩ := bind_eq_ok.mp hcolumns
  cases hu
  exact updateColumns_columns hsets

theorem update_columns {filter : Option Filter} {u : Update}
    (h : p.update s payload filter = .ok u) :
    c ∈ u.columnNames ↔
      ∃ x ∈ s.entity.fields, p.isFixed x.2 = false ∧ Fills p s payload x.1 x.2 c := by
  obtain ⟨table, -, hcolumns⟩ := bind_eq_ok.mp h
  obtain ⟨sets, hsets, hu⟩ := bind_eq_ok.mp hcolumns
  cases hu
  exact updateColumns_columns hsets

end

/-- An upsert overwrites no bound column. An update keeps off them exactly when no field that it
writes, one that is neither key nor governed, is written to the column of one that is. -/
theorem bound_columns_kept (p : Planner) (s : Scope) (payload : Payload) :
    (∀ filter u, p.updateById s payload = .ok u ∨ p.update s payload filter = .ok u →
      ((∀ c ∈ p.boundColumns s, c ∉ u.columnNames) ↔
        ∀ x ∈ s.entity.fields, ∀ y ∈ s.entity.fields, p.isFixed x.2 = false →
          p.isFixed y.2 = true → ¬Fills p s payload x.1 x.2 (p.column s y.1))) ∧
    (∀ returning w, p.upsert s payload returning = .ok w →
      ∀ c ∈ p.boundColumns s, c ∉ w.updates) := by
  constructor
  · intro filter u hu
    have hcolumns : ∀ c, c ∈ u.columnNames ↔ ∃ x ∈ s.entity.fields,
        p.isFixed x.2 = false ∧ Fills p s payload x.1 x.2 c := by
      intro c
      cases hu with
      | inl hbyId => exact updateById_columns hbyId
      | inr hupdate => exact update_columns hupdate
    have hbound : ∀ c, c ∈ p.boundColumns s ↔
        ∃ y ∈ s.entity.fields, p.isFixed y.2 = true ∧ p.column s y.1 = c := by
      intro c
      simp only [boundColumns, List.mem_map, List.mem_filter, and_assoc]
    constructor
    · intro hkept x hx y hy hfree hfixed hfills
      exact hkept _ ((hbound _).mpr ⟨y, hy, hfixed, rfl⟩)
        ((hcolumns _).mpr ⟨x, hx, hfree, hfills⟩)
    · intro hapart c hc hmem
      obtain ⟨y, hy, hfixed, rfl⟩ := (hbound c).mp hc
      obtain ⟨x, hx, hfree, hfills⟩ := (hcolumns _).mp hmem
      exact hapart x hx y hy hfree hfixed hfills
  · intro returning w hw c hbound hmem
    exact ((upsert_updates hw).mp hmem).1 hbound

/-! ## An order that changes its tenant -/

def tenant : Entity :=
  ⟨"Tenant", .entity, some "tenants", [("id", ⟨.scalar "string", true, false, []⟩)], []⟩

def order : Entity :=
  ⟨"Order", .entity, some "orders",
    [("id", ⟨.scalar "long", true, false, []⟩),
      ("tenantId", ⟨.scalar "string", false, false, [(Field.governanceAttr, .str "tenant")]⟩),
      ("tenant", .ofType (.ref "Tenant")), ("status", .ofType (.scalar "string"))], []⟩

/-- The column of the tenant is mapped twice: for the text that binds an order to its tenant, and
for the key of the reference. -/
def orders : Scope where
  model := ⟨[("Order", order), ("Tenant", tenant)], []⟩
  entity := order
  view := ⟨"core", [("tenant", .detailed none none none none [("id", .direct "tenant_id")]),
    ("tenantId", .direct "tenant_id")], none⟩

def orderPlanner : Planner :=
  ⟨.snakeCase, ["tenant"], [("Order", Capability.all), ("Tenant", Capability.all)]⟩

/-- An open order, handed over to another tenant by its reference. -/
def movedOrder : Payload :=
  .document [("id", .long 1), ("status", .str "OPEN"), ("tenant", .map [("id", .str "globex")])]

theorem movedOrder_moves :
    ∃ u, orderPlanner.updateById orders movedOrder = .ok u ∧
      ¬∀ c ∈ orderPlanner.boundColumns orders, c ∉ u.columnNames := by
  obtain ⟨u, hu⟩ : ∃ u, orderPlanner.updateById orders movedOrder = .ok u := ⟨_, rfl⟩
  refine ⟨u, hu, fun hkept => ?_⟩
  have hapart := ((bound_columns_kept orderPlanner orders movedOrder).1 none u (.inl hu)).mp hkept
  exact hapart _ (.tail _ (.tail _ (.head _))) _ (.tail _ (.head _)) rfl rfl
    (.nested rfl rfl rfl (.head _) rfl rfl)

end Planner
end Polystore
