import Polystore.Proofs.Documents.ReadingBack

/-! # Written paths

A value that was written at a path is read there, by the path as a whole, from its first segment on
and by its key. Writing at a path that leads elsewhere takes nothing away and can be done before or
after. So an insert of columns that are not in each other's way stores all of them, whatever their
order is. -/

namespace Polystore.Documents
set_option autoImplicit false

open Document (overlay)

section
variable {s : Scope} {w : Insert} {d : Document}

/-- The key of the store takes the place of nothing that is there. -/
theorem withId_kept_paths {path : String} {v : Value} (key : Option String)
    (h : d.getPath? path = some v) : Document.getPath? (withId key d) path = some v := by
  obtain heq | ⟨_, _, _, -, -, hfree, -, heq⟩ := withId_cases key d
  · rw [heq, h]
  · have hhead : (segments path).head? ≠ some idField := by
      intro hhead
      obtain ⟨x, hx⟩ := Document.lookup_head_of_getPath? hhead h
      rw [hfree] at hx
      cases hx
    rw [heq, Document.getPath?_insert_of_ne hhead, h]

theorem stored_eq_ok {c : ColumnBind} {v : Value} :
    stored .insert c.column c.bind = .ok v ↔ Placeable c ∧ v = storedValue c := by
  refine ⟨placeable_of_stored, ?_⟩
  rintro ⟨hc, rfl⟩
  refine map_eq_ok.mpr ⟨_, hc .insert [], ?_⟩
  rw [Document.at?_eq, Document.getPath?_setPath_self, Option.getD_some]

/-- An insert is refused for a column that cannot be stored, and for nothing else. -/
theorem insertDocument_eq_ok : insertDocument s w = .ok d ↔
    (∀ c ∈ w.columns, Placeable c) ∧
      d = withId (keyPath? s) (overlay (w.columns.map written) []) := by
  constructor
  · intro h
    obtain ⟨d', hplaced, rfl⟩ := map_eq_ok.mp h
    obtain ⟨hcolumns, rfl⟩ := placeAll_eq_ok.mp hplaced
    exact ⟨hcolumns, rfl⟩
  · rintro ⟨hcolumns, rfl⟩
    exact map_eq_ok.mpr ⟨_, placeAll_eq_ok.mpr ⟨hcolumns, rfl⟩, rfl⟩

variable (hapart : w.columnNames.Pairwise Apart) (h : insertDocument s w = .ok d)
include hapart h

theorem column_kept {c : ColumnBind} (hc : c ∈ w.columns) :
    ∃ v, stored .insert c.column c.bind = .ok v ∧ d.getPath? c.column = some v := by
  obtain ⟨hcolumns, rfl⟩ := insertDocument_eq_ok.mp h
  refine ⟨storedValue c, stored_eq_ok.mpr ⟨hcolumns c hc, rfl⟩, ?_⟩
  exact withId_kept_paths _ (getPath?_written (eq_or_apart hapart) hc)

theorem columns_reordered {cs : List ColumnBind} (hcs : cs.Perm w.columns) :
    insertDocument s { w with columns := cs } = .ok d := by
  obtain ⟨hcolumns, rfl⟩ := insertDocument_eq_ok.mp h
  have hsame : overlay (cs.map written) [] = overlay (w.columns.map written) [] :=
    Document.overlay_eq_of_mem_iff (written_tolerate (eq_or_apart hapart)) fun _ =>
      (hcs.map written).mem_iff
  refine insertDocument_eq_ok.mpr ⟨fun c hc => hcolumns c (hcs.mem_iff.mp hc), ?_⟩
  rw [hsame]

end

/-- What is written at a path is read there; of two values the later one stays; and writes at paths
that lead elsewhere neither see nor overwrite each other. All readers agree on a document that was
written by paths. An insert of columns at such paths keeps each of them as it would be stored alone,
in any order, and is refused only for a column that could not be stored alone. -/
theorem written_paths_kept :
    (∀ (d : Document) p v, (d.setPath p v).getPath? p = some v) ∧
    (∀ (d : Document) p v w, (d.setPath p w).setPath p v = d.setPath p v) ∧
    (∀ (d : Document) p q v w, Apart p q →
      (d.setPath p v).getPath? q = d.getPath? q ∧
        (d.setPath p v).setPath q w = (d.setPath q w).setPath p v) ∧
    (∀ es path, (overlay es []).at? path = (overlay es []).getPath? path ∧
      Row.atKey? (overlay es []) path = (overlay es []).getPath? path) ∧
    ∀ s (w : Insert), w.columnNames.Pairwise Apart →
      ((∃ d, insertDocument s w = .ok d) ↔
        ∀ c ∈ w.columns, ∃ v, stored .insert c.column c.bind = .ok v) ∧
      ∀ d, insertDocument s w = .ok d →
        (∀ c ∈ w.columns, ∃ v, stored .insert c.column c.bind = .ok v ∧
          d.getPath? c.column = some v) ∧
        ∀ cs, cs.Perm w.columns → insertDocument s { w with columns := cs } = .ok d := by
  refine ⟨Document.getPath?_setPath_self, fun d p v w => Document.setPath_setPath p d, ?_, ?_, ?_⟩
  · intro d p q v w hpq
    exact ⟨Document.getPath?_setPath_of_apart hpq d v, (Document.setPath_comm hpq d).symm⟩
  · intro es path
    exact ⟨Document.at?_eq _ path, Document.undotted_nil.overlay.atKey? path⟩
  · intro s w hapart
    refine ⟨⟨?_, ?_⟩, fun d hd => ⟨fun c => column_kept hapart hd, ?_⟩⟩
    · rintro ⟨d, hd⟩ c hc
      obtain ⟨v, hv, -⟩ := column_kept hapart hd hc
      exact ⟨v, hv⟩
    · intro hstored
      refine ⟨_, insertDocument_eq_ok.mpr ⟨fun c hc => ?_, rfl⟩⟩
      obtain ⟨v, hv⟩ := hstored c hc
      exact (stored_eq_ok.mp hv).1
    · exact fun cs => columns_reordered hapart hd

/-! ## A buyer's columns

Two columns lead into one nested document, one of them by an empty segment. -/

def buyerInsert : Insert :=
  ⟨"orders", [⟨"buyer.name", .str "Ada", "string"⟩, ⟨"key", .uuid firstId, "uuid"⟩,
    ⟨"buyer..age", .int 36, "int"⟩], []⟩

def buyerDocument : Document :=
  [("_id", .str firstId.text),
    ("buyer", .map [("", .map [("age", .int 36)]), ("name", .str "Ada")]),
    ("key", .str firstId.text)]

/-- The age and the name go into a document in place of the text that stood there, and an insert
stores them in either order. -/
theorem buyerColumns_kept : Apart "buyer.name" "buyer..age" ∧
    Document.setPath (Document.setPath [("buyer", .str "Ada")] "buyer.name" (.str "Ada"))
        "buyer..age" (.int 36) =
      Document.setPath (Document.setPath [("buyer", .str "Ada")] "buyer..age" (.int 36))
        "buyer.name" (.str "Ada") ∧
    buyerInsert.columnNames.Pairwise Apart ∧
    insertDocument orders buyerInsert = .ok buyerDocument ∧
    (∀ c ∈ buyerInsert.columns, ∃ v, stored .insert c.column c.bind = .ok v ∧
      buyerDocument.getPath? c.column = some v) ∧
    insertDocument orders { buyerInsert with columns := buyerInsert.columns.reverse } =
      .ok buyerDocument := by
  have hapart : Apart "buyer.name" "buyer..age" := by decide +kernel
  have hcolumns : buyerInsert.columnNames.Pairwise Apart := by decide +kernel
  have hinsert : insertDocument orders buyerInsert = .ok buyerDocument := rfl
  obtain ⟨-, -, hwrites, -, hinserts⟩ := written_paths_kept
  obtain ⟨hkept, hreordered⟩ := (hinserts orders buyerInsert hcolumns).2 _ hinsert
  exact ⟨hapart, (hwrites _ _ _ _ _ hapart).2, hcolumns, hinsert, hkept,
    hreordered _ (List.reverse_perm _)⟩

end Polystore.Documents
