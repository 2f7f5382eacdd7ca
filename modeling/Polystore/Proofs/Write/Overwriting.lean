import Polystore.Proofs.Write.Boundaries
import Mathlib.Data.List.Flatten
import Mathlib.Data.List.Nodup
import Mathlib.Data.List.Pairwise

/-! # Columns that writes overwrite

An update passes over the fields that inserts alone write. An upsert takes the columns of these
fields out of what it has inserted. Both overwrite the same columns exactly when every column that
a payload fills is the mapped column of such a field if and only if such a field fills it: a
reference that is a key or binds a row to its tenant fills the columns of its children, which an
upsert does not take out. -/

namespace Polystore.Planner
set_option autoImplicit false

/-! ## Filtered columns -/

section
variable {α β : Type} {columns : α → List β}

/-- Where all columns are different each belongs to one element. -/
theorem eq_of_mem_of_nodup {l : List α} (hdistinct : (l.flatMap columns).Nodup) {x y : α}
    (hx : x ∈ l) (hy : y ∈ l) {c : β} (hcx : c ∈ columns x) (hcy : c ∈ columns y) : x = y := by
  by_contra hne
  have hsymm : Std.Symm (Function.onFun List.Disjoint columns) := ⟨fun _ _ h _ hb ha => h ha hb⟩
  exact (List.nodup_flatMap.mp hdistinct).2.forall hx hy hne hcx hcy

variable [DecidableEq β] {keep : β → Bool} {free : α → Bool}

theorem count_filtered_lt {l : List α} {x : α} (hx : x ∈ l) (hfixed : free x = false) {c : β}
    (hc : c ∈ columns x) :
    ((l.filter free).flatMap columns).count c < (l.flatMap columns).count c := by
  obtain ⟨before, behind, rfl⟩ := List.append_of_mem hx
  have hle : ∀ m : List α, ((m.filter free).flatMap columns).count c ≤
      (m.flatMap columns).count c :=
    fun m => (List.filter_sublist.flatMap columns).count_le c
  have hpos : 0 < (columns x).count c := List.count_pos_iff.mpr hc
  have hskip : (x :: behind).filter free = behind.filter free := by
    rw [List.filter_cons, hfixed]
    rfl
  rw [List.filter_append, hskip, List.flatMap_append, List.flatMap_append, List.flatMap_cons,
    List.count_append, List.count_append, List.count_append]
  have := hle before
  have := hle behind
  omega

/-- To leave out columns is to leave out the elements that have them, if that is the same for each
column of each element. -/
theorem filter_flatMap_eq_iff (l : List α) :
    (l.flatMap columns).filter keep = (l.filter free).flatMap columns ↔
      ∀ x ∈ l, ∀ c ∈ columns x, keep c = free x := by
  constructor
  · intro heq x hx c hc
    have hmem : c ∈ l.flatMap columns := List.mem_flatMap.mpr ⟨x, hx, hc⟩
    cases hfree : free x with
    | true =>
      have hcolumn : c ∈ (l.filter free).flatMap columns :=
        List.mem_flatMap.mpr ⟨x, List.mem_filter.mpr ⟨hx, hfree⟩, hc⟩
      rw [← heq] at hcolumn
      exact (List.mem_filter.mp hcolumn).2
    | false =>
      apply Bool.eq_false_iff.mpr
      intro hkeep
      have hlt := count_filtered_lt hx hfree hc
      rw [← heq, List.count_filter hkeep] at hlt
      exact Nat.lt_irrefl _ hlt
  · intro hagree
    induction l with
    | nil => rfl
    | cons x l ih =>
      obtain ⟨hfirst, hrest⟩ := List.forall_mem_cons.mp hagree
      rw [List.flatMap_cons, List.filter_append, ih hrest, List.filter_cons]
      cases hfree : free x with
      | true =>
        have hall : (columns x).filter keep = columns x :=
          List.filter_eq_self.mpr fun c hc => (hfirst c hc).trans hfree
        rw [hall, if_pos rfl, List.flatMap_cons]
      | false =>
        have hnone : (columns x).filter keep = [] := by
          refine List.filter_eq_nil_iff.mpr fun c hc => ?_
          rw [hfirst c hc, hfree]
          exact Bool.false_ne_true
        rw [hnone, if_neg Bool.false_ne_true, List.nil_append]

end

/-! ## Columns of fields -/

/-- The columns that a field of the payload fills; none if that cannot be told. -/
def filledColumns (p : Planner) (s : Scope) (payload : Payload) (x : String × Field) :
    List String :=
  match p.columnsOf s payload x.1 x.2 with
  | .ok cs => cs.map (·.column)
  | .error _ => []

/-- The columns that a field can fill, whatever the payload. -/
def mappedColumns (p : Planner) (s : Scope) (x : String × Field) : List String :=
  if Entity.isRef x.2.type then
    (((s.view.mapping.lookup x.1).bind Mapping.nested?).getD []).filterMap fun c => c.2.target?
  else [p.column s x.1]

section
variable {p : Planner} {s : Scope} {payload : Payload} {c : String}

theorem columnsOfAll_filled {fields : List (String × Field)} {cs : List ColumnBind}
    (h : p.columnsOfAll s payload fields = .ok cs) :
    cs.map (·.column) = fields.flatMap (p.filledColumns s payload) ∧
      ∀ x ∈ fields, ∀ c, c ∈ p.filledColumns s payload x ↔ Fills p s payload x.1 x.2 c := by
  induction fields generalizing cs with
  | nil =>
    cases h
    exact ⟨rfl, nofun⟩
  | cons x fields ih =>
    obtain ⟨first, hfirst, hnext⟩ := bind_eq_ok.mp h
    obtain ⟨rest, hrest, hcs⟩ := bind_eq_ok.mp hnext
    cases hcs
    obtain ⟨hcolumns, hfills⟩ := ih hrest
    have hfilled : p.filledColumns s payload x = first.map (·.column) := by
      rw [filledColumns, hfirst]
    constructor
    · rw [List.map_append, List.flatMap_cons, hfilled, hcolumns]
    · refine List.forall_mem_cons.mpr ⟨fun c => ?_, hfills⟩
      rw [hfilled]
      exact columnsOf_columns hfirst

theorem Fills.mapped {x : String × Field} (h : Fills p s payload x.1 x.2 c) :
    c ∈ p.mappedColumns s x := by
  cases h with
  | own plain =>
    rw [mappedColumns, plain]
    exact List.mem_singleton_self _
  | nested reference mapped _ mem placed =>
    have href : Entity.isRef x.2.type = true := by rw [reference]; rfl
    rw [mappedColumns, href, if_pos rfl, mapped]
    exact List.mem_filterMap.mpr ⟨_, mem, placed⟩

theorem upsert_columns {returning : Bool} {w : Upsert} (h : p.upsert s payload returning = .ok w) :
    ∃ cs, p.columnsOfAll s payload s.entity.fields = .ok cs ∧
      w.updates = (cs.map (·.column)).filter fun c => !(p.boundColumns s).contains c := by
  obtain ⟨i, hi, hw⟩ := bind_eq_ok.mp h
  obtain ⟨table, -, htable⟩ := bind_eq_ok.mp hi
  obtain ⟨columns, hcolumns, hinsert⟩ := bind_eq_ok.mp htable
  obtain ⟨-, -, hcs⟩ := bind_eq_ok.mp hcolumns
  cases hw
  cases hinsert
  refine ⟨columns, hcs, List.filter_congr fun c _ => congrArg not ?_⟩
  have hbound := mem_boundColumns (p := p) (s := s) (c := c)
  simp only [← List.contains_iff_mem, ← Bool.or_eq_true] at hbound
  exact (Bool.eq_iff_iff.mpr hbound).symm

theorem update_sets {filter : Option Filter} {u : Update} (h : p.update s payload filter = .ok u) :
    p.columnsOfAll s payload (s.entity.fields.filter fun x => !p.isFixed x.2) = .ok u.sets := by
  obtain ⟨table, -, hcolumns⟩ := bind_eq_ok.mp h
  obtain ⟨sets, hsets, hu⟩ := bind_eq_ok.mp hcolumns
  cases hu
  obtain ⟨-, -, hcs⟩ := bind_eq_ok.mp hsets
  exact hcs

/-- Where the columns that fields can fill are all different and no reference is a key or binds a
row to its tenant, a field fills the column of a fixed one only if it is that field. -/
theorem filled_bound_iff (hdistinct : (s.entity.fields.flatMap (p.mappedColumns s)).Nodup)
    (hplain : ∀ x ∈ s.entity.fields, p.isFixed x.2 = true → Entity.isRef x.2.type = false)
    {x : String × Field} (hx : x ∈ s.entity.fields) (hfills : Fills p s payload x.1 x.2 c) :
    c ∈ p.boundColumns s ↔ p.isFixed x.2 = true := by
  have hown : ∀ y ∈ s.entity.fields, p.isFixed y.2 = true →
      p.mappedColumns s y = [p.column s y.1] := by
    intro y hy hfixed
    rw [mappedColumns, hplain y hy hfixed]
    rfl
  constructor
  · intro hbound
    obtain ⟨y, hy, rfl⟩ := List.mem_map.mp hbound
    obtain ⟨hy, hfixed⟩ := List.mem_filter.mp hy
    have hmine : p.column s y.1 ∈ p.mappedColumns s y := by
      rw [hown y hy hfixed]
      exact List.mem_singleton_self _
    rw [eq_of_mem_of_nodup hdistinct hx hy hfills.mapped hmine]
    exact hfixed
  · intro hfixed
    have hmem := hfills.mapped
    rw [hown x hx hfixed] at hmem
    exact List.mem_map.mpr ⟨x, List.mem_filter.mpr ⟨hx, hfixed⟩, (List.mem_singleton.mp hmem).symm⟩

end

/-- An upsert and an update overwrite the same columns in the same order exactly when the payload
fills the columns of keys and of tenants from the fields that these belong to. Where all columns are
different it does, unless a reference is a key or binds a row to its tenant. -/
theorem overwritten_columns_agree (p : Planner) (s : Scope) (payload : Payload) (returning : Bool)
    (filter : Option Filter) {w : Upsert} {u : Update}
    (hw : p.upsert s payload returning = .ok w) (hu : p.update s payload filter = .ok u) :
    (w.updates = u.columnNames ↔ ∀ x ∈ s.entity.fields, ∀ c, Fills p s payload x.1 x.2 c →
      (c ∈ p.boundColumns s ↔ p.isFixed x.2 = true)) ∧
    ((s.entity.fields.flatMap (p.mappedColumns s)).Nodup →
      (∀ x ∈ s.entity.fields, p.isFixed x.2 = true → Entity.isRef x.2.type = false) →
      w.updates = u.columnNames) := by
  have hagree : w.updates = u.columnNames ↔ ∀ x ∈ s.entity.fields, ∀ c,
      Fills p s payload x.1 x.2 c → (c ∈ p.boundColumns s ↔ p.isFixed x.2 = true) := by
    obtain ⟨cs, hcs, hupdates⟩ := upsert_columns hw
    obtain ⟨hfilled, hfills⟩ := columnsOfAll_filled hcs
    have hsets : u.columnNames = _ := (columnsOfAll_filled (update_sets hu)).1
    rw [hupdates, hsets, hfilled, filter_flatMap_eq_iff]
    refine forall₂_congr fun x hx => forall_congr' fun c => ?_
    rw [hfills x hx c, Bool.not_inj_iff, Bool.eq_iff_iff, List.contains_iff_mem]
  exact ⟨hagree, fun hdistinct hplain => hagree.mpr fun x hx c hfills =>
    filled_bound_iff hdistinct hplain hx hfills⟩

/-! ## A shipment that is handed over -/

def shipment : Entity :=
  ⟨"Shipment", .entity, some "shipments",
    [("id", ⟨.scalar "long", true, false, []⟩),
      ("tenant", ⟨.ref "Tenant", false, false, [(Field.governanceAttr, .str "tenant")]⟩),
      ("status", .ofType (.scalar "string"))], []⟩

/-- The tenant is a reference, written to the column of its key. -/
def shipments : Scope where
  model := ⟨[("Shipment", shipment), ("Tenant", tenant)], []⟩
  entity := shipment
  view := ⟨"core", [("tenant", .detailed none none none none [("id", .direct "tenant_id")])], none⟩

def shipmentPlanner (boundaries : List String) : Planner :=
  ⟨.snakeCase, boundaries, [("Shipment", Capability.all), ("Tenant", Capability.all)]⟩

def sentShipment : Payload :=
  .document [("id", .long 1), ("status", .str "SENT"), ("tenant", .map [("id", .str "globex")])]

/-- As a boundary the tenant stays what it is in an update, and is overwritten by an upsert. Where
it is no boundary both overwrite it. -/
theorem sentShipment_overwrites :
    (∃ w u, (shipmentPlanner ["tenant"]).upsert shipments sentShipment false = .ok w ∧
      (shipmentPlanner ["tenant"]).update shipments sentShipment none = .ok u ∧
      w.updates ≠ u.columnNames) ∧
    (∃ w u, (shipmentPlanner []).upsert shipments sentShipment false = .ok w ∧
      (shipmentPlanner []).update shipments sentShipment none = .ok u ∧
      w.updates = u.columnNames) := by
  have hdistinct : (shipments.entity.fields.flatMap
      ((shipmentPlanner []).mappedColumns shipments)).Nodup := by decide +kernel
  constructor
  · obtain ⟨w, hw⟩ : ∃ w, (shipmentPlanner ["tenant"]).upsert shipments sentShipment false = .ok w :=
      ⟨_, rfl⟩
    obtain ⟨u, hu⟩ : ∃ u, (shipmentPlanner ["tenant"]).update shipments sentShipment none = .ok u :=
      ⟨_, rfl⟩
    refine ⟨w, u, hw, hu, fun heq => ?_⟩
    have hagree := (overwritten_columns_agree _ shipments sentShipment false none hw hu).1.mp heq
    have hbound := (hagree _ (.tail _ (.head _)) "tenant_id"
      (.nested rfl rfl rfl (.head _) rfl rfl)).mpr rfl
    exact absurd hbound (by decide +kernel)
  · obtain ⟨w, hw⟩ : ∃ w, (shipmentPlanner []).upsert shipments sentShipment false = .ok w :=
      ⟨_, rfl⟩
    obtain ⟨u, hu⟩ : ∃ u, (shipmentPlanner []).update shipments sentShipment none = .ok u :=
      ⟨_, rfl⟩
    refine ⟨w, u, hw, hu, ?_⟩
    exact (overwritten_columns_agree _ shipments sentShipment false none hw hu).2 hdistinct
      (by decide +kernel)

end Polystore.Planner
