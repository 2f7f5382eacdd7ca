import Polystore.Documents.Execution
import Polystore.Proofs.Documents.Placing
import Polystore.Proofs.Documents.Properties

/-! # Reading back what was inserted

An inserted document, read through the view it was written through, has again what the payload had:
each value as its type decodes what it encodes, explicit nulls, and nested documents of the children
that have values. -/

namespace Polystore.Documents
set_option autoImplicit false

/-! ## Placed values -/

/-- A value after it was encoded and decoded by its type. -/
def settled (b : Bind) : Except CodecError Value :=
  (types.encode b.typeId b.value).bind (types.decode b.typeId)

/-- What is stored for a bound value, as it is decoded. -/
def Stores (b : Bind) (x : Value) : Prop :=
  ∃ w, settled b = .ok w ∧ types.decode b.typeId x = .ok w

section
variable {op : BindOp} {cs : List ColumnBind} {d d' : Document}

/-- Whatever form a value is stored in, it is decoded as if it had been stored as it was encoded. -/
theorem Placeable.stores {c : ColumnBind} (h : Placeable c) {t : TypeRef} {u : UserType}
    (ht : Storable t u) (hid : c.bind.typeId = t.typeId) : Stores c.bind (storedValue c) := by
  obtain ⟨w, hw, hform⟩ := h.form
  have hconvert : ∀ v, types.encode c.bind.typeId v = u.encode v ∧
      types.decode c.bind.typeId v = u.decode v := by
    intro v
    unfold TypeTable.encode TypeTable.decode
    rw [hid, ht.get_typeId]
    exact ⟨rfl, rfl⟩
  have hencoded : Encoded u w := ht.encoded ((hconvert _).1.symm.trans hw)
  refine ⟨w, ?_, ?_⟩
  · have hdecode : types.decode c.bind.typeId w = .ok w := (hconvert w).2.trans hencoded.decode_eq
    exact bind_eq_ok.mpr ⟨w, hw, hdecode⟩
  · rw [hform, (hconvert _).2]
    unfold storedForm
    split
    · exact hencoded.decode_uuidText
    · exact hencoded.decode_eq

theorem placeAll_apart (h : placeAll op cs d = .ok d') {path : String}
    (hpath : ∀ c ∈ cs, Apart c.column path) :
    Document.getPath? d' path = Document.getPath? d path := by
  obtain ⟨-, rfl⟩ := placeAll_eq_ok.mp h
  exact Document.getPath?_overlay_of_apart (List.forall_mem_map.mpr hpath)

/-- Columns that are not in each other's way all have their values in the end. -/
theorem placeAll_stores (h : placeAll op cs d = .ok d')
    (htyped : ∀ c ∈ cs, ∃ t u, Storable t u ∧ c.bind.typeId = t.typeId)
    (hapart : ∀ c ∈ cs, ∀ e ∈ cs, c = e ∨ Apart c.column e.column) :
    ∀ c ∈ cs, ∃ x, Stores c.bind x ∧ Document.getPath? d' c.column = some x := by
  obtain ⟨hcs, rfl⟩ := placeAll_eq_ok.mp h
  intro c hc
  obtain ⟨t, u, ht, hid⟩ := htyped c hc
  exact ⟨_, (hcs c hc).stores ht hid, getPath?_written hapart hc⟩

end

/-! ## Inserted documents -/

section
variable {s : Scope} {payload : Payload} {d : Document} {a : Property}

/-- The value that a payload has for a property is what a document has at its path, and a document
has nothing there if the payload has none. -/
def Shows (s : Scope) (payload : Payload) (found : Option Value) (a : Property) : Prop :=
  match a.value? s payload with
  | none => found = none
  | some v => ∃ x, found = some x ∧ Stores ⟨v, a.type.typeId⟩ x

theorem encode_ref {t : String} (ht : t = "ref") (v : Value) :
    ∃ e, types.encode t v = .error e := by
  obtain ⟨e, he⟩ := get_ref ""
  refine ⟨e, ?_⟩
  unfold TypeTable.encode
  have hget : types.get t = .error e := ht ▸ he
  rw [hget]
  rfl

/-- The columns of an insert show in the document of the properties. -/
theorem Legible.placed (h : Legible s) {p : Planner} (hp : p.policy = .explicit)
    {cs : List ColumnBind} (hcs : p.columnsOfAll s payload s.entity.fields = .ok cs)
    (hplace : placeAll .insert cs [] = .ok d) (ha : a ∈ properties s) :
    Shows s payload (Document.getPath? d (a.path s.view)) a := by
  have htyped : ∀ c ∈ cs, c.bind.typeId ≠ "ref" := by
    intro c hc href
    obtain ⟨hplaceable, -⟩ := placeAll_eq_ok.mp hplace
    obtain ⟨w, hw, -⟩ := (hplaceable c hc).form
    obtain ⟨e, he⟩ := encode_ref href c.bind.value
    cases hw.symm.trans he
  have hmem : ∀ c, c ∈ cs ↔ ∃ a ∈ properties s, ∃ v, a.value? s payload = some v ∧
      c = a.bound s.view v := fun c => h.mem_columns hp (fun _ hf => hf) hcs htyped
  have hstored : ∀ c ∈ cs, ∃ t u, Storable t u ∧ c.bind.typeId = t.typeId := by
    intro c hc
    obtain ⟨b, hb, v, -, rfl⟩ := (hmem c).mp hc
    obtain ⟨u, hu⟩ := h.storable b hb
    exact ⟨b.type, u, hu, rfl⟩
  unfold Shows
  cases hvalue : a.value? s payload with
  | none =>
    have hothers : ∀ c ∈ cs, Apart c.column (a.path s.view) := by
      intro c hc
      obtain ⟨b, hb, v, hb', rfl⟩ := (hmem c).mp hc
      refine (h.eq_or_apart hb ha).resolve_left ?_
      rintro rfl
      rw [hvalue] at hb'
      cases hb'
    show _ = none
    rw [placeAll_apart hplace hothers, Document.getPath?_nil]
  | some v =>
    have hapart : ∀ c ∈ cs, ∀ e ∈ cs, c = e ∨ Apart c.column e.column := by
      intro c hc e he
      obtain ⟨b, hb, v, hv, rfl⟩ := (hmem c).mp hc
      obtain ⟨b', hb', v', hv', rfl⟩ := (hmem e).mp he
      refine (h.eq_or_apart hb hb').imp_left ?_
      rintro rfl
      rw [hv] at hv'
      cases hv'
      rfl
    have hc : a.bound s.view v ∈ cs := (hmem _).mpr ⟨a, ha, v, hvalue, rfl⟩
    obtain ⟨x, hx, hget⟩ := placeAll_stores hplace hstored hapart _ hc
    exact ⟨x, hget, hx⟩

theorem withId_cases (key : Option String) (d : Document) :
    withId key d = d ∨ ∃ path v w, key = some path ∧ path ≠ idField ∧
      d.lookup idField = none ∧ Document.getPath? d path = some v ∧
      withId key d = Entries.insert idField w d := by
  cases key with
  | none => exact .inl rfl
  | some path =>
    unfold withId
    dsimp only
    rw [Document.at?_eq]
    split
    · exact .inl rfl
    · rename_i hfree
      rw [Bool.or_eq_true, not_or, beq_iff_eq] at hfree
      cases hid : (Document.getPath? d path).bind nonNull with
      | none => exact .inl rfl
      | some w =>
        obtain ⟨v, hv, -⟩ := Option.bind_eq_some_iff.mp hid
        refine .inr ⟨path, v, w, rfl, hfree.1, ?_, hv, rfl⟩
        rw [Entries.hasKey, Option.not_isSome_iff_eq_none] at hfree
        exact hfree.2

/-- The key of the store does not show in the properties. -/
theorem Legible.withId_getPath? (h : Legible s) (ha : a ∈ properties s) :
    Document.getPath? (withId (keyPath? s) d) (a.path s.view) =
      Document.getPath? d (a.path s.view) := by
  obtain heq | ⟨path, v, w, hkey, -, hnone, hv, heq⟩ := withId_cases (keyPath? s) d
  · rw [heq]
  · rw [heq]
    apply Document.getPath?_insert_of_ne
    intro hhead
    -- The property is the key itself, and what is there would be under the key of the store.
    obtain ⟨hchild, hsingle⟩ := h.idKept a ha hhead
    have hpath : a.path s.view = path := by
      unfold keyPath? at hkey
      rw [hsingle] at hkey
      have hname : a.name = a.field := by
        unfold Property.name
        rw [hchild]
      rw [Property.path, hname]
      exact Option.some.inj hkey
    rw [hpath] at hhead
    obtain ⟨w, hw⟩ := Document.lookup_head_of_getPath? hhead hv
    rw [hnone] at hw
    cases hw

theorem withId_undotted (key : Option String) (hd : Document.Undotted d) :
    Document.Undotted (withId key d) := by
  obtain heq | ⟨-, -, w, -, -, -, -, heq⟩ := withId_cases key d
  · rw [heq]
    exact hd
  · rw [heq]
    have hid : '.' ∉ idField.toList := by decide
    exact hd.insert hid w

theorem Legible.inserted (h : Legible s) {p : Planner} (hp : p.policy = .explicit)
    {returning : Bool} {w : Insert} (hplan : p.insert s payload returning = .ok w)
    (hinsert : insertDocument s w = .ok d) (ha : a ∈ properties s) :
    Shows s payload (Row.atKey? d (a.path s.view)) a := by
  obtain ⟨table, -, hplan⟩ := bind_eq_ok.mp hplan
  obtain ⟨cs, hcolumns, hplan⟩ := bind_eq_ok.mp hplan
  obtain ⟨-, -, hcs⟩ := bind_eq_ok.mp hcolumns
  cases hplan
  obtain ⟨d, hplace, rfl⟩ := map_eq_ok.mp hinsert
  obtain ⟨-, hd⟩ := placeAll_eq_ok.mp hplace
  have hundotted := withId_undotted (keyPath? s) (hd ▸ Document.undotted_nil.overlay)
  rw [hundotted.atKey?, h.withId_getPath? ha]
  exact h.placed hp hcs hplace ha

/-! ## Kept values -/

/-- The children of a nested document that have values, as they are decoded. -/
def keptChildren (s : Scope) (payload : Payload) (name : String) :
    List (String × Field) → Except CodecError Document
  | [] => .ok []
  | (child, f) :: fs =>
    match Property.value? ⟨name, some child, f.type⟩ s payload with
    | none => keptChildren s payload name fs
    | some v => do
      let w ← settled ⟨v, f.type.typeId⟩
      let d ← keptChildren s payload name fs
      .ok ((child, w) :: d)

/-- What is kept of a field: of a reference its children, if there are any. -/
def kept? (s : Scope) (payload : Payload) (name : String) (f : Field) :
    Except CodecError (Option Value) :=
  match f.type with
  | .ref target => (keptChildren s payload name (Entity.childFields s.model target)).map fun d =>
      if d.isEmpty then none else some (.map (Entries.ofList d))
  | t => match Property.value? ⟨name, none, t⟩ s payload with
    | none => .ok none
    | some v => (settled ⟨v, t.typeId⟩).map some

def keptFields (s : Scope) (payload : Payload) :
    List (String × Field) → Except CodecError (List (String × Value))
  | [] => .ok []
  | (name, f) :: fs => do
    let v ← kept? s payload name f
    let es ← keptFields s payload fs
    .ok ((v.map fun v => (name, v)).toList ++ es)

/-- What is kept of a payload. -/
def kept (s : Scope) (payload : Payload) : Except CodecError Document :=
  (keptFields s payload s.entity.fields).map Entries.ofList

/-! ## Rows of inserted documents -/

/-- A row that shows a property has it, and decodes it to what is kept, just where there is a value
for it. -/
theorem Shows.read {r : Row} {name : String} (h : Shows s payload (r.find? name) a) :
    a.value? s payload = none ∧ r.has name = false ∨
      ∃ v w, a.value? s payload = some v ∧ settled ⟨v, a.type.typeId⟩ = .ok w ∧
        r.has name = true ∧ r.decode types name a.type.typeId = .ok w := by
  unfold Shows at h
  unfold Row.has Row.decode Row.raw
  cases hvalue : a.value? s payload with
  | none =>
    rw [hvalue] at h
    exact .inl ⟨rfl, by rw [h]; rfl⟩
  | some v =>
    rw [hvalue] at h
    obtain ⟨x, hx, w, hsettled, hdecode⟩ := h
    rw [hx]
    exact .inr ⟨v, w, rfl, hsettled, rfl, hdecode⟩

theorem readFields_kept {r : Row} {name : String} {fs : List (String × Field)}
    (h : ∀ f ∈ fs, Shows s payload (r.find? f.1) ⟨name, some f.1, f.2.type⟩) :
    ∃ es, keptChildren s payload name fs = .ok es ∧ Entity.readFields r types fs = .ok es := by
  induction fs with
  | nil => exact ⟨[], rfl, rfl⟩
  | cons f fs ih =>
    obtain ⟨child, f⟩ := f
    obtain ⟨hshows, hrest⟩ := List.forall_mem_cons.mp h
    obtain ⟨es, hkept, hread⟩ := ih hrest
    unfold keptChildren Entity.readFields
    obtain ⟨hvalue, hhas⟩ | ⟨v, w, hvalue, hsettled, hhas, hdecode⟩ := hshows.read
    · rw [hvalue, hhas, if_neg Bool.false_ne_true]
      exact ⟨es, hkept, hread⟩
    · rw [hvalue, hhas, if_pos rfl]
      refine ⟨(child, w) :: es, ?_, ?_⟩
      · exact bind_eq_ok.mpr ⟨w, hsettled, bind_eq_ok.mpr ⟨es, hkept, rfl⟩⟩
      · exact bind_eq_ok.mpr ⟨w, hdecode, bind_eq_ok.mpr ⟨es, hread, rfl⟩⟩

theorem object?_rowOf {name : String}
    (h : Row.isBlob s.view (Row.withoutEndDots (name ++ ".")) = false) :
    (rowOf s.view d).object? types (name ++ ".") =
      some (.mapped (.plain d) s.view (name ++ ".")) := by
  unfold rowOf Row.object?
  dsimp only
  rw [String.empty_append, h, if_neg Bool.false_ne_true]

theorem find?_rowOf (name : String) :
    (rowOf s.view d).find? name = Row.atKey? d (pathOf s.view name) := by
  have hlead : "" ++ name = name := String.empty_append
  show Row.atKey? d (pathOf s.view ("" ++ name)) = _
  rw [hlead]

section
variable {name target : String} {f : Field}

theorem Legible.readRef_kept (h : Legible s)
    (hshows : ∀ a ∈ properties s, Shows s payload (Row.atKey? d (a.path s.view)) a)
    (hf : (name, f) ∈ s.entity.fields) (htype : f.type = .ref target) :
    ∃ v, kept? s payload name f = .ok v ∧
      Entity.readField s.model (rowOf s.view d) types name f = .ok v := by
  have href : Entity.isRef f.type = true := by rw [htype]; rfl
  have hchildren : ∀ c ∈ Entity.childFields s.model target,
      Shows s payload ((Row.mapped (.plain d) s.view (name ++ ".")).find? c.1)
        ⟨name, some c.1, c.2.type⟩ := by
    intro c hc
    refine hshows ⟨name, some c.1, c.2.type⟩ (mem_properties hf ?_)
    rw [fieldProperties_ref htype]
    exact List.mem_map.mpr ⟨c, hc, rfl⟩
  obtain ⟨es, hkept, hread⟩ := readFields_kept hchildren
  refine ⟨if es.isEmpty then none else some (.map (Entries.ofList es)), ?_, ?_⟩
  · unfold kept?
    rw [htype]
    exact map_eq_ok.mpr ⟨es, hkept, rfl⟩
  · unfold Entity.readField Entity.readNested
    rw [htype]
    dsimp only
    rw [object?_rowOf (h.structured _ hf href)]
    dsimp only
    rw [hread]
    cases es <;> rfl

theorem kept?_plain (h : ∀ target, f.type ≠ .ref target) :
    kept? s payload name f = match Property.value? ⟨name, none, f.type⟩ s payload with
      | none => .ok none
      | some v => (settled ⟨v, f.type.typeId⟩).map some := by
  unfold kept?
  split
  · exact absurd ‹_› (h _)
  · rfl

theorem readField_plain {m : Model} {r : Row} (h : ∀ target, f.type ≠ .ref target) :
    Entity.readField m r types name f =
      if r.has name then (r.decode types name f.type.typeId).map some else .ok none := by
  unfold Entity.readField
  split
  · exact absurd ‹_› (h _)
  · rfl

theorem readPlain_kept
    (hshows : ∀ a ∈ properties s, Shows s payload (Row.atKey? d (a.path s.view)) a)
    (hf : (name, f) ∈ s.entity.fields) (hplain : ∀ target, f.type ≠ .ref target) :
    ∃ v, kept? s payload name f = .ok v ∧
      Entity.readField s.model (rowOf s.view d) types name f = .ok v := by
  have hmem : ⟨name, none, f.type⟩ ∈ properties s := by
    apply mem_properties hf
    rw [fieldProperties_plain hplain]
    exact List.mem_singleton_self _
  have hfound : Shows s payload ((rowOf s.view d).find? name) ⟨name, none, f.type⟩ := by
    rw [find?_rowOf]
    exact hshows _ hmem
  rw [kept?_plain hplain, readField_plain hplain]
  obtain ⟨hvalue, hhas⟩ | ⟨v, w, hvalue, hsettled, hhas, hdecode⟩ := hfound.read
  · rw [hvalue, hhas, if_neg Bool.false_ne_true]
    exact ⟨none, rfl, rfl⟩
  · rw [hvalue, hhas, if_pos rfl]
    exact ⟨some w, map_eq_ok.mpr ⟨w, hsettled, rfl⟩, map_eq_ok.mpr ⟨w, hdecode, rfl⟩⟩

/-- Each field is read as what is kept of it. -/
theorem Legible.readField_kept (h : Legible s)
    (hshows : ∀ a ∈ properties s, Shows s payload (Row.atKey? d (a.path s.view)) a)
    (hf : (name, f) ∈ s.entity.fields) : ∃ v, kept? s payload name f = .ok v ∧
      Entity.readField s.model (rowOf s.view d) types name f = .ok v := by
  by_cases hplain : ∀ target, f.type ≠ .ref target
  · exact readPlain_kept hshows hf hplain
  · simp only [not_forall, not_not] at hplain
    obtain ⟨target, htype⟩ := hplain
    exact h.readRef_kept hshows hf htype

end

theorem Legible.readAll_kept (h : Legible s)
    (hshows : ∀ a ∈ properties s, Shows s payload (Row.atKey? d (a.path s.view)) a)
    {fields : List (String × Field)} (hfields : ∀ f ∈ fields, f ∈ s.entity.fields) :
    ∃ es, keptFields s payload fields = .ok es ∧ ∀ acc,
      Entity.readAll s.model (rowOf s.view d) types fields acc =
        .ok (es.foldl (fun acc e => Entries.insert e.1 e.2 acc) acc) := by
  induction fields with
  | nil => exact ⟨[], rfl, fun _ => rfl⟩
  | cons f fields ih =>
    obtain ⟨name, f⟩ := f
    obtain ⟨hf, hfields⟩ := List.forall_mem_cons.mp hfields
    obtain ⟨v, hkept, hread⟩ := h.readField_kept hshows hf
    obtain ⟨es, hrest, hreadRest⟩ := ih hfields
    refine ⟨(v.map fun v => (name, v)).toList ++ es, ?_, ?_⟩
    · exact bind_eq_ok.mpr ⟨v, hkept, bind_eq_ok.mpr ⟨es, hrest, rfl⟩⟩
    · intro acc
      refine bind_eq_ok.mpr ⟨v, hread, ?_⟩
      cases v with
      | none => exact hreadRest acc
      | some v => exact hreadRest (Entries.insert name v acc)

/-- What an inserted document is read back as is what is kept of the payload. -/
theorem inserts_read_back (h : Legible s) {p : Planner} (hp : p.policy = .explicit)
    {returning : Bool} {w : Insert} (hplan : p.insert s payload returning = .ok w)
    (hinsert : insertDocument s w = .ok d) : ∃ read, kept s payload = .ok read ∧
      s.entity.read s.model types (rowOf s.view d) = .ok read := by
  have hshows : ∀ a ∈ properties s, Shows s payload (Row.atKey? d (a.path s.view)) a :=
    fun a ha => h.inserted hp hplan hinsert ha
  obtain ⟨es, hkept, hread⟩ := h.readAll_kept hshows fun f hf => hf
  exact ⟨Entries.ofList es, map_eq_ok.mpr ⟨es, hkept, rfl⟩, hread []⟩

end

/-! ## An order

The key is stored under another name, and of the customer only the name is. -/

def orders : Scope :=
  let customer : Entity := ⟨"Customer", .value, none,
    [("name", .ofType (.scalar "string")), ("age", .ofType (.scalar "int"))], []⟩
  let order : Entity := ⟨"Order", .entity, some "orders",
    [("id", ⟨.scalar "uuid", true, false, []⟩), ("note", .ofType (.scalar "string")),
      ("tags", .ofType (.list (.scalar "string"))), ("customer", .ofType (.ref "Customer"))], []⟩
  let view : View := ⟨"core",
    [("customer", .detailed none none none none [("name", .direct "buyer.name")]),
      ("id", .direct "key")], none⟩
  ⟨⟨[("Customer", customer), ("Order", order)], []⟩, order, view⟩

theorem legible_orders : Legible orders where
  undotted := by decide
  keyed := by decide
  known := by
    intro f hf target htype m hm e he c hc
    simp only [orders, List.mem_cons, List.not_mem_nil, or_false] at hf
    obtain rfl | rfl | rfl | rfl := hf
    · cases htype
    · cases htype
    · cases htype
    · cases htype
      cases hm
      cases he
      cases List.mem_singleton.mp hc
      exact ⟨_, rfl⟩
  structured := by decide
  apart := by decide +kernel
  idKept := by decide +kernel
  storable := by
    have htext : Storable (.scalar "string") _ := .scalar (s := .string) nofun
    have hint : Storable (.scalar "int") _ := .scalar (s := .int) nofun
    have huuid : Storable (.scalar "uuid") _ := .scalar (s := .uuid) nofun
    have hproperties : properties orders =
        [⟨"id", none, .scalar "uuid"⟩, ⟨"note", none, .scalar "string"⟩,
          ⟨"tags", none, .list (.scalar "string")⟩, ⟨"customer", some "name", .scalar "string"⟩,
          ⟨"customer", some "age", .scalar "int"⟩] := rfl
    rw [hproperties]
    simp only [List.forall_mem_cons, List.not_mem_nil, false_imp_iff, implies_true, and_true]
    exact ⟨⟨_, huuid⟩, ⟨_, htext⟩, ⟨_, .wrapped .list htext⟩, ⟨_, htext⟩, ⟨_, hint⟩⟩

def ordersPlanner : Planner := ⟨.explicit, [], Capabilities.ofModel orders.model⟩

def firstId : Uuid := ⟨List.replicate 32 (Fin.last 15), List.length_replicate⟩

def firstOrder : Payload :=
  .document [("customer", .map [("age", .int 36), ("name", .str "Ada")]), ("id", .uuid firstId),
    ("note", .null), ("tags", .list [.str "gift", .int 2])]

def firstInsert : Insert :=
  ⟨"orders", [⟨"key", .uuid firstId, "uuid"⟩, ⟨"note", .null, "string"⟩,
    ⟨"tags", .list [.str "gift", .int 2], "list<string>"⟩,
    ⟨"buyer.name", .str "Ada", "string"⟩], []⟩

/-- The document has its key as `_id` too. -/
def firstDocument : Document :=
  [("_id", .str firstId.text), ("buyer", .map [("name", .str "Ada")]), ("key", .str firstId.text),
    ("note", .null), ("tags", .list [.str "gift", .str "2"])]

theorem get_listOfString :
    types.get "list<string>" = .ok (.collection "list<string>" .list (.scalar .string)) :=
  (Storable.wrapped .list (.scalar (s := .string) nofun)).get_typeId

theorem encode_tags : types.encode "list<string>" (.list [.str "gift", .int 2]) =
    .ok (.list [.str "gift", .str "2"]) := by
  unfold TypeTable.encode
  rw [get_listOfString]
  rfl

theorem decode_tags : types.decode "list<string>" (.list [.str "gift", .str "2"]) =
    .ok (.list [.str "gift", .str "2"]) := by
  unfold TypeTable.decode
  rw [get_listOfString]
  rfl

theorem insertDocument_firstInsert : insertDocument orders firstInsert = .ok firstDocument := by
  have htags : ∀ d, place .insert "tags" ⟨.list [.str "gift", .int 2], "list<string>"⟩ d =
      .ok (d.setPath "tags" (.list [.str "gift", .str "2"])) :=
    fun d => bind_eq_ok.mpr ⟨_, lift_eq_ok.mpr encode_tags, rfl⟩
  have hplaced : placeAll .insert firstInsert.columns [] = .ok firstDocument.tail :=
    bind_eq_ok.mpr ⟨[("key", .str firstId.text)], rfl,
      bind_eq_ok.mpr ⟨[("key", .str firstId.text), ("note", .null)], rfl,
        bind_eq_ok.mpr ⟨_, htags _, rfl⟩⟩⟩
  exact map_eq_ok.mpr ⟨_, hplaced, rfl⟩

theorem kept_firstOrder : kept orders firstOrder =
    .ok [("customer", .map [("name", .str "Ada")]), ("id", .uuid firstId), ("note", .null),
      ("tags", .list [.str "gift", .str "2"])] := by
  have htags : kept? orders firstOrder "tags" (.ofType (.list (.scalar "string"))) =
      .ok (some (.list [.str "gift", .str "2"])) :=
    map_eq_ok.mpr ⟨_, bind_eq_ok.mpr ⟨_, encode_tags, decode_tags⟩, rfl⟩
  have hfields : keptFields orders firstOrder orders.entity.fields =
      .ok [("id", .uuid firstId), ("note", .null), ("tags", .list [.str "gift", .str "2"]),
        ("customer", .map [("name", .str "Ada")])] :=
    bind_eq_ok.mpr ⟨some (.uuid firstId), rfl, bind_eq_ok.mpr ⟨_,
      bind_eq_ok.mpr ⟨some .null, rfl, bind_eq_ok.mpr ⟨_,
        bind_eq_ok.mpr ⟨_, htags, rfl⟩, rfl⟩⟩, rfl⟩⟩
  exact map_eq_ok.mpr ⟨_, hfields, rfl⟩

/-- The identifier is a text in the store and an identifier again when it is read. -/
theorem firstOrder_reads_back : ordersPlanner.insert orders firstOrder false = .ok firstInsert ∧
    insertDocument orders firstInsert = .ok firstDocument ∧
    orders.entity.read orders.model types (rowOf orders.view firstDocument) =
      .ok [("customer", .map [("name", .str "Ada")]), ("id", .uuid firstId), ("note", .null),
        ("tags", .list [.str "gift", .str "2"])] := by
  have hplan : ordersPlanner.insert orders firstOrder false = .ok firstInsert := rfl
  obtain ⟨read, hkept, hread⟩ :=
    inserts_read_back legible_orders rfl hplan insertDocument_firstInsert
  cases hkept.symm.trans kept_firstOrder
  exact ⟨hplan, insertDocument_firstInsert, hread⟩

end Polystore.Documents
