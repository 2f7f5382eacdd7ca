import Polystore.Documents.Writing
import Polystore.Proofs.Types.ElementIds
import Polystore.Proofs.Value.Overlays

/-! # Stored forms

What is stored of a value is what its type encodes it to, with identifiers as texts if the id of
the type asks for it or if the value is a key of the store. It does not depend on the statement
that it is stored for, so that the columns of a write are values at paths. -/

namespace Polystore.Documents
set_option autoImplicit false

open UserType (convertItems)

/-- The ids of the types whose values are stored with identifiers as texts. -/
def isTextType (typeId : String) : Bool :=
  typeAmong ["uuid", "list<uuid>", "set<uuid>"] ⟨.null, typeId⟩

/-- Whether an encoded value is stored with identifiers as texts: by its type, or as a key. -/
def asText (path typeId : String) (w : Value) : Bool :=
  (path == "_id" || path == "id") && isIdValue w || isTextType typeId

def storedForm (path typeId : String) (w : Value) : Value :=
  if asText path typeId w then uuidText w else w

theorem first_binder (d : Document) (ctx : BindContext) (b : Bind) (w : Value) :
    documentBinders.bind TypeTable.documentDialect StoreTarget.document d ctx b w =
      match [idBinder, uuidBinder, instantBinder, pathBinder].find? (·.accepts ctx b w) with
      | some binder => binder.bind d ctx b w
      | none => .error (.binding ⟨TypeTable.documentDialect, "BTreeMap", w.kind.text, b.typeId⟩) := by
  have hcandidates : documentBinders.candidates TypeTable.documentDialect StoreTarget.document =
      [idBinder, uuidBinder, instantBinder, pathBinder] := rfl
  unfold BinderTable.bind
  rw [hcandidates]
  split
  · rename_i binder hfind
    exact hfind ▸ rfl
  · rename_i hfind
    exact hfind ▸ rfl

/-- The form that the binders give to an encoded value. -/
def boundForm (path : String) (b : Bind) (w : Value) : Except Error Value :=
  if asText path b.typeId w then .ok (uuidText w)
  else if typeAmong ["instant", "list<instant>", "set<instant>"] b then lift .codec (asInstant w)
  else .ok w

/-- A value is put at its path in the form that the first binder makes that takes it. -/
theorem bind_form (op : BindOp) {path : String} (hpath : Text.isBlankText path = false)
    (b : Bind) (w : Value) (d : Document) :
    documentBinders.bind TypeTable.documentDialect StoreTarget.document d ⟨op, .path path⟩ b w =
      (boundForm path b w).map (d.setPath path) := by
  have hbound : boundPath? ⟨op, .path path⟩ = some path := by
    show (some path).filter (!Text.isBlankText ·) = some path
    rw [Option.filter_some, hpath]
    rfl
  have hput : ∀ x, putAt d ⟨op, .path path⟩ x = d.setPath path x := fun x => by
    rw [putAt, hbound]
  have hid : idBinder.accepts ⟨op, .path path⟩ b w =
      ((path == "_id" || path == "id") && isIdValue w) := by
    show (isIdPath ⟨op, .path path⟩ && isIdValue w) = _
    rw [isIdPath, hbound]
  have huuid : uuidBinder.accepts ⟨op, .path path⟩ b w = isTextType b.typeId := by
    show ((boundPath? ⟨op, .path path⟩).isSome && isTextType b.typeId) = _
    rw [hbound, Option.isSome_some, Bool.true_and]
  have hinstant : instantBinder.accepts ⟨op, .path path⟩ b w =
      typeAmong ["instant", "list<instant>", "set<instant>"] b := by
    show ((boundPath? ⟨op, .path path⟩).isSome && typeAmong _ b) = _
    rw [hbound, Option.isSome_some, Bool.true_and]
  have hany : pathBinder.accepts ⟨op, .path path⟩ b w = true := by
    show (boundPath? ⟨op, .path path⟩).isSome = true
    rw [hbound, Option.isSome_some]
  rw [first_binder]
  unfold boundForm asText
  simp only [List.find?_cons, hid, huuid, hinstant, hany]
  cases hkey : (path == "_id" || path == "id") && isIdValue w with
  | true => exact congrArg Except.ok (hput _)
  | false =>
    cases htext : isTextType b.typeId with
    | true => exact congrArg Except.ok (hput _)
    | false =>
      cases hinstants : typeAmong ["instant", "list<instant>", "set<instant>"] b with
      | true => exact congrArg (fun f => (lift Error.codec (asInstant w)).map f) (funext hput)
      | false => exact congrArg Except.ok (hput _)

theorem bind_blank {op : BindOp} {path : String} (hpath : Text.isBlankText path = true) (b : Bind)
    (w : Value) (d d' : Document) : documentBinders.bind TypeTable.documentDialect
      StoreTarget.document d ⟨op, .path path⟩ b w ≠ .ok d' := by
  have hbound : boundPath? ⟨op, .path path⟩ = none := by
    show (some path).filter (!Text.isBlankText ·) = none
    rw [Option.filter_some, hpath]
    rfl
  have hnone : ∀ binder ∈ [idBinder, uuidBinder, instantBinder, pathBinder],
      binder.accepts ⟨op, .path path⟩ b w = false := by
    have hid : isIdPath ⟨op, .path path⟩ = false := by rw [isIdPath, hbound]
    simp only [List.forall_mem_cons, Binder.accepts, idBinder, uuidBinder, instantBinder, pathBinder,
      hid, hbound, Option.isSome_none, Bool.false_and, Bool.and_false, true_and]
    exact nofun
  rw [first_binder, List.find?_eq_none.mpr fun binder hmem => Bool.eq_false_iff.mp (hnone binder hmem)]
  nofun

/-- Encoded instants are stored as they are. -/
theorem asInstant_encoded {b : Bind} {w x : Value}
    (h : typeAmong ["instant", "list<instant>", "set<instant>"] b = true)
    (hw : types.encode b.typeId b.value = .ok w) (hx : asInstant w = .ok x) : x = w := by
  have hfixed : asInstant w = .ok w := by
    obtain hw | ⟨id, k, hw⟩ := encoded_among (s := .instant) nofun h hw
    · exact hw.asInstant_eq (.inl rfl)
    · exact hw.asInstant_eq (.inr ⟨id, k, rfl⟩)
  cases hx.symm.trans hfixed
  rfl

/-- What is stored of a value follows from what it is encoded to, from its path and its type. It
can be put into any document by any statement. -/
theorem place_anywhere {op : BindOp} {path : String} {b : Bind} {d d' : Document}
    (h : place op path b d = .ok d') : ∃ w, types.encode b.typeId b.value = .ok w ∧
      ∀ op d, place op path b d = .ok (d.setPath path (storedForm path b.typeId w)) := by
  obtain ⟨w, hw, h⟩ := bind_eq_ok.mp h
  rw [lift_eq_ok] at hw
  cases hpath : Text.isBlankText path with
  | true => exact absurd h (bind_blank hpath b w d d')
  | false =>
    rw [bind_form op hpath] at h
    obtain ⟨x, hx, -⟩ := map_eq_ok.mp h
    have hform : x = storedForm path b.typeId w := by
      unfold boundForm at hx
      unfold storedForm
      split at hx
      · rename_i htext
        rw [if_pos htext]
        exact (Except.ok.inj hx).symm
      · rename_i htext
        rw [if_neg htext]
        split at hx
        · rename_i hinstant
          exact asInstant_encoded hinstant hw (lift_eq_ok.mp hx)
        · exact (Except.ok.inj hx).symm
    refine ⟨w, hw, fun op d => bind_eq_ok.mpr ⟨w, lift_eq_ok.mpr hw, ?_⟩⟩
    rw [bind_form op hpath, hx, hform]
    rfl

theorem place_form {op : BindOp} {path : String} {b : Bind} {d d' : Document}
    (h : place op path b d = .ok d') : ∃ w, types.encode b.typeId b.value = .ok w ∧
      d' = d.setPath path (storedForm path b.typeId w) := by
  obtain ⟨w, hw, hplace⟩ := place_anywhere h
  exact ⟨w, hw, Except.ok.inj (h.symm.trans (hplace op d))⟩

theorem stored_form {op : BindOp} {path : String} {b : Bind} {x : Value}
    (h : stored op path b = .ok x) : ∃ w, types.encode b.typeId b.value = .ok w ∧
      x = storedForm path b.typeId w := by
  obtain ⟨d, hplace, rfl⟩ := map_eq_ok.mp h
  obtain ⟨w, hw, rfl⟩ := place_form hplace
  refine ⟨w, hw, ?_⟩
  rw [Document.at?_eq, Document.getPath?_setPath_self, Option.getD_some]

theorem storedAll_form {op : BindOp} {path typeId : String} {vs xs : List Value}
    (h : storedAll op path typeId vs = .ok xs) : ∃ ws,
      convertItems (types.encode typeId) vs = .ok ws ∧ xs = ws.map (storedForm path typeId) := by
  induction vs generalizing xs with
  | nil =>
    cases h
    exact ⟨[], rfl, rfl⟩
  | cons v vs ih =>
    obtain ⟨x, hx, h⟩ := bind_eq_ok.mp h
    obtain ⟨xs, hxs, h⟩ := bind_eq_ok.mp h
    cases h
    obtain ⟨w, hw, rfl⟩ := stored_form hx
    obtain ⟨ws, hws, rfl⟩ := ih hxs
    exact ⟨w :: ws, bind_eq_ok.mpr ⟨w, hw, bind_eq_ok.mpr ⟨ws, hws, rfl⟩⟩, rfl⟩

/-! ## Columns of a write -/

/-- The value that is stored for a column; null if there is none. -/
@[irreducible] def storedValue (c : ColumnBind) : Value :=
  (stored .insert c.column c.bind).toOption.getD .null

def written (c : ColumnBind) : String × Value := (c.column, storedValue c)

/-- The value of a column can be put into any document by any statement. -/
def Placeable (c : ColumnBind) : Prop :=
  ∀ op d, place op c.column c.bind d = .ok (d.setPath c.column (storedValue c))

section
variable {op : BindOp} {c : ColumnBind} {cs : List ColumnBind} {d d' : Document}

theorem placeable_of_place (h : place op c.column c.bind d = .ok d') :
    Placeable c ∧ d' = d.setPath c.column (storedValue c) := by
  obtain ⟨w, -, hall⟩ := place_anywhere h
  have hvalue : storedValue c = storedForm c.column c.bind.typeId w := by
    unfold storedValue stored
    rw [hall]
    show (Document.at? _ _).getD .null = _
    rw [Document.at?_eq, Document.getPath?_setPath_self, Option.getD_some]
  have hplaceable : Placeable c := by
    intro op d
    rw [hvalue, hall]
  exact ⟨hplaceable, Except.ok.inj (h.symm.trans (hplaceable op d))⟩

theorem placeable_of_stored {x : Value} (h : stored op c.column c.bind = .ok x) :
    Placeable c ∧ x = storedValue c := by
  obtain ⟨d, hplace, rfl⟩ := map_eq_ok.mp h
  obtain ⟨hc, rfl⟩ := placeable_of_place hplace
  exact ⟨hc, by rw [Document.at?_eq, Document.getPath?_setPath_self, Option.getD_some]⟩

theorem Placeable.form (h : Placeable c) : ∃ w, types.encode c.bind.typeId c.bind.value = .ok w ∧
    storedValue c = storedForm c.column c.bind.typeId w := by
  obtain ⟨w, hw, hall⟩ := place_anywhere (h .insert [])
  refine ⟨w, hw, ?_⟩
  have hsame := Except.ok.inj ((h .insert []).symm.trans (hall .insert []))
  have hget := Document.getPath?_setPath_self [] c.column (storedValue c)
  rw [hsame, Document.getPath?_setPath_self] at hget
  exact (Option.some.inj hget).symm

/-- Columns are written into a document if each of them can be, and then one after the other. -/
theorem placeAll_eq_ok : placeAll op cs d = .ok d' ↔
    (∀ c ∈ cs, Placeable c) ∧ d' = Document.overlay (cs.map written) d := by
  induction cs generalizing d with
  | nil => exact ⟨fun h => ⟨nofun, (Except.ok.inj h).symm⟩, fun h => congrArg Except.ok h.2.symm⟩
  | cons c cs ih =>
    rw [List.forall_mem_cons, List.map_cons, Document.overlay_cons]
    constructor
    · intro h
      obtain ⟨d₁, hplace, h⟩ := bind_eq_ok.mp h
      obtain ⟨hc, rfl⟩ := placeable_of_place hplace
      obtain ⟨hcs, hd'⟩ := ih.mp h
      exact ⟨⟨hc, hcs⟩, hd'⟩
    · rintro ⟨⟨hc, hcs⟩, hd'⟩
      exact bind_eq_ok.mpr ⟨_, hc op d, ih.mpr ⟨hcs, hd'⟩⟩

/-- Of columns that are pairwise not in each other's way any two are the same or are not. -/
theorem eq_or_apart {w : Insert} (hapart : w.columnNames.Pairwise Apart) :
    ∀ c ∈ w.columns, ∀ e ∈ w.columns, c = e ∨ Apart c.column e.column := by
  have hpairs : w.columns.Pairwise fun a b => a = b ∨ Apart a.column b.column :=
    (List.pairwise_map.mp hapart).imp .inr
  have hsymm : Std.Symm fun a b : ColumnBind => a = b ∨ Apart a.column b.column :=
    ⟨fun a b => Or.imp Eq.symm Apart.symm⟩
  have hself : ∀ a ∈ w.columns, a = a ∨ Apart a.column a.column := fun a _ => .inl rfl
  intro c hc e he
  exact List.Pairwise.forall_of_forall hself hpairs hc he

theorem written_tolerate (hapart : ∀ c ∈ cs, ∀ e ∈ cs, c = e ∨ Apart c.column e.column) :
    ∀ e ∈ cs.map written, ∀ e' ∈ cs.map written, Document.Tolerates e e' := by
  simp only [List.forall_mem_map]
  intro c hc e he
  exact (hapart c hc e he).imp_left (congrArg written)

theorem getPath?_written (hapart : ∀ c ∈ cs, ∀ e ∈ cs, c = e ∨ Apart c.column e.column)
    (hc : c ∈ cs) :
    Document.getPath? (Document.overlay (cs.map written) d) c.column = some (storedValue c) :=
  Document.getPath?_overlay (written_tolerate hapart) (List.mem_map_of_mem (f := written) hc)

theorem storeAll_written (h : storeAll op cs d = .ok d') : (∀ c ∈ cs, Placeable c) ∧
    d' = (cs.map written).foldl (fun acc e => Entries.insert e.1 e.2 acc) d := by
  induction cs generalizing d with
  | nil =>
    cases h
    exact ⟨nofun, rfl⟩
  | cons c cs ih =>
    obtain ⟨x, hx, h⟩ := bind_eq_ok.mp h
    obtain ⟨hc, rfl⟩ := placeable_of_stored hx
    obtain ⟨hcs, hd'⟩ := ih h
    exact ⟨List.forall_mem_cons.mpr ⟨hc, hcs⟩, hd'⟩

end

end Polystore.Documents
