import Polystore.Payload.Capability
import Polystore.Proofs.Outcome
import Polystore.Proofs.Value.Paths
import Polystore.Sql.Execution

/-! # Columns of derived selects

A view without a native query asks for its columns under the names of the properties that they are
mapped from. Rows are read by the labels of the view. So a property has the value of its column in
every row exactly if the view does not declare another label for it. -/

namespace Polystore.Sql
set_option autoImplicit false

/-! ## Columns in a text -/

/-- An expression, and the name that its values have in a row. -/
structure Column where
  expr : String
  name : String
deriving DecidableEq

def Column.item (c : Column) : Tokens := selectItem c.expr c.name

/-- The columns that a text names: expressions with a name behind AS. -/
def namedColumns : Tokens → List Column
  | .raw expr :: .key .space :: .key .as :: .key .space :: .ident name :: ts =>
    ⟨expr, name⟩ :: namedColumns ts
  | _ :: ts => namedColumns ts
  | [] => []

theorem namedColumns_key (k : Keyword) (ts : Tokens) :
    namedColumns (.key k :: ts) = namedColumns ts := by
  rw [namedColumns]
  nofun

theorem namedColumns_item (c : Column) (ts : Tokens) :
    namedColumns (c.item ++ ts) = c :: namedColumns ts := rfl

theorem namedColumns_items (cs : List Column) (ts : Tokens) :
    namedColumns (Tokens.commaSeparated (cs.map Column.item) ++ ts) = cs ++ namedColumns ts := by
  unfold Tokens.commaSeparated
  induction cs with
  | nil => rfl
  | cons c cs ih =>
    cases cs with
    | nil => exact namedColumns_item c ts
    | cons c' cs =>
      have hjoin : Tokens.join [.key .comma, .key .space] ((c :: c' :: cs).map Column.item) ++ ts =
          c.item ++ (.key .comma :: .key .space ::
            (Tokens.join [.key .comma, .key .space] ((c' :: cs).map Column.item) ++ ts)) := by
        simp only [List.map_cons, Tokens.join, List.append_assoc, List.cons_append, List.nil_append]
      rw [hjoin, namedColumns_item, namedColumns_key, namedColumns_key, ih]
      rfl

/-! ## Columns of a view -/

/-- The columns of a field: its own, or those of the mapped children of a reference. -/
def fieldColumns (v : View) (name : String) (f : Field) : List Column :=
  match f.type with
  | .ref _ =>
    match v.mapping.lookup name with
    | none => []
    | some m => m.fields.filterMap fun (child, c) =>
        c.target?.map fun expr => ⟨expr, name ++ "." ++ child⟩
  | _ => [⟨v.refPath name, name⟩]

def columns (s : Scope) : List Column :=
  s.entity.fields.flatMap fun f => fieldColumns s.view f.1 f.2

theorem fieldItems_eq (v : View) (name : String) (f : Field) :
    fieldItems v name f = (fieldColumns v name f).map Column.item := by
  unfold fieldItems fieldColumns
  cases f.type with
  | ref target =>
    cases v.mapping.lookup name with
    | none => rfl
    | some m =>
      dsimp only
      rw [List.map_filterMap]
      congr 1
      funext e
      rw [Option.map_map]
      rfl
  | _ => rfl

theorem selectItems_eq (s : Scope) :
    selectItems s =
      if (columns s).isEmpty then [Tokens.key .star] else (columns s).map Column.item := by
  have hitems : (s.entity.fields.flatMap fun f => fieldItems s.view f.1 f.2) =
      (columns s).map Column.item := by
    unfold columns
    rw [List.map_flatMap]
    simp only [fieldItems_eq]
  unfold selectItems
  simp only [hitems, List.isEmpty_map]

theorem namedColumns_derivedSelect {s : Scope} {ts : Tokens} (h : derivedSelect s = .ok ts) :
    namedColumns ts = columns s := by
  obtain ⟨table, -, rfl⟩ := map_eq_ok.mp h
  have hspaced : Tokens.spaced [Tokens.key .select, Tokens.commaSeparated (selectItems s),
      Tokens.key .from, [.ident table]] = .key .select :: .key .space ::
        (Tokens.commaSeparated (selectItems s) ++
          [.key .space, .key .from, .key .space, .ident table]) := by
    simp only [Tokens.spaced, Tokens.join, Tokens.key, List.append_assoc, List.cons_append,
      List.nil_append]
  rw [hspaced, namedColumns_key, namedColumns_key, selectItems_eq]
  split
  · rename_i hnone
    rw [List.isEmpty_iff.mp hnone]
    rfl
  · rw [namedColumns_items]
    exact List.append_nil _

/-! ## Selected properties -/

/-- The name of a property: of a field, or of a child below a reference. -/
def propertyName (field : String) : Option String → String
  | none => field
  | some child => field ++ "." ++ child

/-- The properties that a field has columns for, with the expressions that they are mapped to. -/
inductive Asks (v : View) (name : String) (f : Field) : Option String → String → Prop
  | own (plain : Entity.isRef f.type = false) : Asks v name f none (v.refPath name)
  | nested {child expr : String} {m c : Mapping} (reference : Entity.isRef f.type = true)
      (mapped : v.mapping.lookup name = some m) (held : (child, c) ∈ m.fields)
      (placed : c.target? = some expr) : Asks v name f (some child) expr

/-- Fields can be told apart by their names, and so can the children of a mapping. -/
structure Distinct (s : Scope) : Prop where
  names : (s.entity.fields.map (·.1)).Nodup
  undotted : ∀ f ∈ s.entity.fields, '.' ∉ f.1.toList
  keyed : ∀ e ∈ s.view.mapping, (e.2.fields.map (·.1)).Nodup

theorem propertyName_inj {field field' : String} {child child' : Option String}
    (h : '.' ∉ field.toList) (h' : '.' ∉ field'.toList)
    (heq : propertyName field child = propertyName field' child') :
    field = field' ∧ child = child' := by
  have hsplit := congrArg (Text.splitOnce? '.') heq
  cases child with
  | none =>
    cases child' with
    | none => exact ⟨heq, rfl⟩
    | some c' =>
      rw [propertyName, propertyName, splitOnce?_undotted h, splitOnce?_dot h'] at hsplit
      cases hsplit
  | some c =>
    cases child' with
    | none =>
      rw [propertyName, propertyName, splitOnce?_dot h, splitOnce?_undotted h'] at hsplit
      cases hsplit
    | some c' =>
      rw [propertyName, propertyName, splitOnce?_dot h, splitOnce?_dot h'] at hsplit
      cases hsplit
      exact ⟨rfl, rfl⟩

theorem mem_fieldColumns {v : View} {name : String} {f : Field} {c : Column} :
    c ∈ fieldColumns v name f ↔
      ∃ child, Asks v name f child c.expr ∧ c.name = propertyName name child := by
  obtain ⟨expr, column⟩ := c
  unfold fieldColumns
  cases htype : f.type with
  | ref target =>
    have href : Entity.isRef f.type = true := by rw [htype]; rfl
    cases hm : v.mapping.lookup name with
    | none =>
      simp only [List.not_mem_nil, false_iff]
      rintro ⟨child, hasks, -⟩
      cases hasks with
      | own plain => rw [href] at plain; cases plain
      | nested _ mapped => rw [hm] at mapped; cases mapped
    | some m =>
      simp only [List.mem_filterMap, Prod.exists, Option.map_eq_some_iff, Column.mk.injEq]
      constructor
      · rintro ⟨child, c, hc, _, htarget, rfl, rfl⟩
        exact ⟨some child, .nested href hm hc htarget, rfl⟩
      · rintro ⟨child, hasks, rfl⟩
        cases hasks with
        | own plain => rw [href] at plain; cases plain
        | nested _ mapped held placed =>
          cases hm.symm.trans mapped
          exact ⟨_, _, held, _, placed, rfl, rfl⟩
  | _ =>
    have hplain : Entity.isRef f.type = false := by rw [htype]; rfl
    simp only [List.mem_singleton, Column.mk.injEq]
    constructor
    · rintro ⟨rfl, rfl⟩
      exact ⟨none, .own hplain, rfl⟩
    · rintro ⟨child, hasks, rfl⟩
      cases hasks with
      | own => exact ⟨rfl, rfl⟩
      | nested reference => rw [hplain] at reference; cases reference

section
variable {s : Scope}

theorem mem_columns {c : Column} : c ∈ columns s ↔ ∃ f ∈ s.entity.fields, ∃ child,
    Asks s.view f.1 f.2 child c.expr ∧ c.name = propertyName f.1 child := by
  unfold columns
  simp only [List.mem_flatMap, mem_fieldColumns]

theorem Distinct.fieldColumns (h : Distinct s) (name : String) (f : Field) :
    (fieldColumns s.view name f).Pairwise fun a b => a.name ≠ b.name := by
  unfold Sql.fieldColumns
  cases f.type with
  | ref target =>
    cases hm : s.view.mapping.lookup name with
    | none => exact List.Pairwise.nil
    | some m =>
      have hkeys := List.pairwise_map.mp (h.keyed _ (Entries.mem_of_lookup hm))
      refine List.Pairwise.filterMap _ ?_ hkeys
      rintro ⟨child, c⟩ ⟨child', c'⟩ hne x hx y hy heq
      obtain ⟨expr, -, rfl⟩ := Option.map_eq_some_iff.mp hx
      obtain ⟨expr', -, rfl⟩ := Option.map_eq_some_iff.mp hy
      exact hne (String.append_right_inj _ |>.mp heq)
  | _ => exact List.pairwise_singleton _ _

/-- No two columns have one name. -/
theorem Distinct.columns (h : Distinct s) : ((columns s).map (·.name)).Nodup := by
  refine List.pairwise_map.mpr (List.pairwise_flatMap.mpr ⟨fun f _ => h.fieldColumns f.1 f.2, ?_⟩)
  have hnames := List.pairwise_map.mp h.names
  refine hnames.imp_of_mem fun hf hg hne a ha b hb heq => hne ?_
  obtain ⟨child, -, hname⟩ := mem_fieldColumns.mp ha
  obtain ⟨child', -, hname'⟩ := mem_fieldColumns.mp hb
  rw [hname, hname'] at heq
  exact (propertyName_inj (h.undotted _ hf) (h.undotted _ hg) heq).1

/-! ## Rows -/

theorem lookup_row {row : ResultRow} (hnodup : (row.map (·.1)).Nodup) {name : String} {v : Value}
    (h : (name, v) ∈ row) : (Entries.ofList row).lookup name = some v :=
  Entries.lookup_of_mem (Entries.nodup_keys (Entries.sorted_ofList row))
    (Entries.mem_ofList_of_mem hnodup h)

/-- A path that a document has as a key is read by its label, if there is one. -/
theorem find?_labelled {d : Document} (v : View) (lead path : String) {w : Value}
    (h : d.lookup (lead ++ path) = some w) : (Row.labelled (.plain d) v lead).find? path =
      Row.atKey? d ((v.labels.lookup (lead ++ path)).getD (lead ++ path)) := by
  have hhas : ((Row.plain d).find? (lead ++ path)).isSome = true := by
    unfold Row.find? Row.atKey?
    rw [h]
    rfl
  unfold Row.find? Row.label
  cases v.labels.lookup (lead ++ path) with
  | none =>
    dsimp only
    rw [if_pos hhas]
    rfl
  | some l => rfl

theorem withoutEndDots_dot {field : String} (h : '.' ∉ field.toList) :
    Row.withoutEndDots (field ++ ".") = field := by
  have hchars : (field ++ ".").toList.reverse = '.' :: field.toList.reverse := by
    rw [String.toList_append, List.reverse_append]
    rfl
  have hdrop : field.toList.reverse.dropWhile (· == '.') = field.toList.reverse := by
    cases hcs : field.toList.reverse with
    | nil => rfl
    | cons c cs =>
      have hc : ¬(c == '.') = true := by
        rw [beq_iff_eq]
        rintro rfl
        exact h (List.mem_reverse.mp (hcs ▸ List.mem_cons_self))
      exact List.dropWhile_cons_of_neg hc
  unfold Row.withoutEndDots
  rw [hchars, List.dropWhile_cons_of_pos rfl, hdrop, List.reverse_reverse, String.ofList_toList]

/-- A row has a property, with a value: a field of its own or, in the row of the paths below the
name of a reference, a child. -/
def Finds (types : TypeTable) (r : Row) (field : String) (v : Value) : Option String → Prop
  | none => r.has field = true ∧ r.raw field = v
  | some child => ∃ inner, r.object? types (field ++ ".") = some inner ∧
      inner.has child = true ∧ inner.raw child = v

theorem has_raw_iff {r : Row} {path : String} {v : Value} :
    r.has path = true ∧ r.raw path = v ↔ r.find? path = some v := by
  unfold Row.has Row.raw
  cases r.find? path with
  | none => simp
  | some w => simp

/-- A property is read where its label leads to, whatever expression its column has. -/
theorem finds_iff {types : TypeTable} {v : View} {row : ResultRow} {field : String}
    {child : Option String} {w x : Value} (hfield : '.' ∉ field.toList)
    (hmode : child ≠ none → v.mode field = .structured)
    (h : (Entries.ofList row).lookup (propertyName field child) = some w) :
    Finds types (rowOf v row) field x child ↔ Row.atKey? (Entries.ofList row)
      ((v.labels.lookup (propertyName field child)).getD (propertyName field child)) = some x := by
  cases child with
  | none =>
    have hempty : "" ++ field = field := String.empty_append
    have hfind := find?_labelled v "" field (hempty.symm ▸ h)
    rw [hempty] at hfind
    unfold Finds
    rw [has_raw_iff, rowOf, hfind]
    rfl
  | some child =>
    have hobject : (rowOf v row).object? types (field ++ ".") =
        some (.labelled (.plain (Entries.ofList row)) v (field ++ ".")) := by
      have hblob : Row.isBlob v field = false := by
        unfold Row.isBlob
        rw [hmode nofun]
        simp
      unfold rowOf Row.object?
      dsimp only
      rw [String.empty_append, withoutEndDots_dot hfield, hblob, if_neg Bool.false_ne_true]
    have hfind := find?_labelled v (field ++ ".") child h
    unfold Finds
    simp only [hobject, Option.some.injEq, exists_eq_left', has_raw_iff]
    rw [hfind]
    rfl

/-! ## What is read -/

/-- A derived select names one column for each property, after the property. In every row with just
these columns a property has the value of its column exactly if no other label is declared for
it. -/
theorem selected_columns_read {ts : Tokens} (h : Distinct s) (hts : derivedSelect s = .ok ts) :
    ((namedColumns ts).map (·.name)).Nodup ∧
    (∀ c, c ∈ namedColumns ts ↔ ∃ f ∈ s.entity.fields, ∃ child,
      Asks s.view f.1 f.2 child c.expr ∧ c.name = propertyName f.1 child) ∧
    ∀ types, ∀ f ∈ s.entity.fields, ∀ child expr, Asks s.view f.1 f.2 child expr →
      (child ≠ none → s.view.mode f.1 = .structured) →
      ((∀ row : ResultRow, row.map (·.1) = (namedColumns ts).map (·.name) →
          ∀ v, (propertyName f.1 child, v) ∈ row → Finds types (rowOf s.view row) f.1 v child) ↔
        ∀ l, s.view.labels.lookup (propertyName f.1 child) = some l → l = propertyName f.1 child) := by
  rw [namedColumns_derivedSelect hts]
  refine ⟨h.columns, fun c => mem_columns, ?_⟩
  intro types f hf child expr hasks hmode
  have hundotted := h.undotted f hf
  constructor
  · intro hreads l hlabel
    -- A row in which no other column has the value of the property.
    let row : ResultRow := (columns s).map fun c =>
      (c.name, .bool (c.name == propertyName f.1 child))
    have hnames : row.map (·.1) = (columns s).map (·.name) := by
      rw [List.map_map]
      rfl
    have hflat : ∀ e ∈ Entries.ofList row, ∃ c : Column,
        e = (c.name, .bool (c.name == propertyName f.1 child)) := by
      intro e he
      obtain ⟨c, -, rfl⟩ := List.mem_map.mp (Entries.mem_ofList he)
      exact ⟨c, rfl⟩
    have hown : (propertyName f.1 child, Value.bool true) ∈ row := by
      refine List.mem_map.mpr ⟨⟨expr, propertyName f.1 child⟩, ?_, ?_⟩
      · exact mem_columns.mpr ⟨f, hf, child, hasks, rfl⟩
      · rw [beq_self_eq_true]
    have hread := hreads row hnames _ hown
    rw [finds_iff hundotted hmode (lookup_row (hnames ▸ h.columns) hown), hlabel,
      Document.atKey?_of_flat] at hread
    · obtain ⟨c, hc⟩ := hflat _ (Entries.mem_of_lookup hread)
      rw [Prod.mk.injEq, Value.bool.injEq] at hc
      obtain ⟨rfl, hname⟩ := hc
      exact eq_of_beq hname.symm
    · intro e he m
      obtain ⟨c, rfl⟩ := hflat e he
      nofun
  · intro hlabel row hnames v hv
    have hlookup := lookup_row (hnames ▸ h.columns) hv
    rw [finds_iff hundotted hmode hlookup]
    have hname : (s.view.labels.lookup (propertyName f.1 child)).getD (propertyName f.1 child) =
        propertyName f.1 child := by
      cases hl : s.view.labels.lookup (propertyName f.1 child) with
      | none => rfl
      | some l => exact hlabel l hl
    rw [hname, Document.atKey?_eq, hlookup]
    rfl

end

/-! ## A labelled status

The select names the column of the status after the field, and rows are read by the label. -/

def labelledOrders : Scope :=
  let order : Entity := ⟨"Order", .entity, some "orders",
    [("id", ⟨.scalar "long", true, false, []⟩), ("status", .ofType (.scalar "string"))], []⟩
  let view : View := ⟨"core",
    [("status", .detailed none (some "state") (some "Status") none [])], none⟩
  ⟨⟨[("Order", order)], []⟩, order, view⟩

theorem distinct_labelledOrders : Distinct labelledOrders where
  names := by decide
  undotted := by decide
  keyed := by decide

/-- The status of a new order is not found under its name. -/
theorem labelledStatus_unread : Distinct labelledOrders ∧
    ∃ ts, derivedSelect labelledOrders = .ok ts ∧
      namedColumns ts = [⟨"id", "id"⟩, ⟨"state", "status"⟩] ∧
      ∃ row : ResultRow, row.map (·.1) = (namedColumns ts).map (·.name) ∧
        ∃ v, ("status", v) ∈ row ∧
          ¬Finds (backend .postgres).types (rowOf labelledOrders.view row) "status" v none := by
  obtain ⟨ts, hts⟩ : ∃ ts, derivedSelect labelledOrders = .ok ts := ⟨_, rfl⟩
  have hcolumns : namedColumns ts = [⟨"id", "id"⟩, ⟨"state", "status"⟩] := by
    rw [namedColumns_derivedSelect hts]
    decide
  refine ⟨distinct_labelledOrders, ts, hts, hcolumns, ?_⟩
  have hread := (selected_columns_read distinct_labelledOrders hts).2.2 (backend .postgres).types
    ("status", .ofType (.scalar "string")) (.tail _ (.head _)) none "state" (.own rfl) nofun
  have hlabel : ¬∀ l, labelledOrders.view.labels.lookup (propertyName "status" none) = some l →
      l = propertyName "status" none := by
    intro hnone
    exact absurd (hnone "Status" rfl) (by decide)
  rw [← hread] at hlabel
  simp only [Classical.not_forall] at hlabel
  obtain ⟨row, hnames, v, hv, hunread⟩ := hlabel
  exact ⟨row, hnames, v, hv, hunread⟩

end Polystore.Sql
