import Polystore.Documents.Execution
import Polystore.Proofs.Documents.ReadingBack
import Polystore.Proofs.Write.Boundaries

/-! # Documents that upserts create

An upsert that finds no document makes one of its filter and its update. It is the document that an
insert of the same columns stores, but for the key: an insert has no `_id` for a key that is null,
and an upsert has the null. -/

namespace Polystore.Documents
set_option autoImplicit false

open Document (overlay Tolerates)

/-! ## Columns -/

/-- The document of the inserted columns, without a key that is stored under another path. -/
def plainDocument (w : Insert) : Document := overlay (w.columns.map written) []

theorem column?_eq_some {w : Insert} {name : String} {c : ColumnBind} (h : w.column? name = some c) :
    c ∈ w.columns ∧ c.column = name := by
  unfold Insert.column? at h
  have hname := List.find?_some h
  exact ⟨List.mem_of_find?_eq_some h, eq_of_beq hname⟩

theorem conflictFilter_written {w : Insert} {key : Option String} {names : List String}
    {r r' : Document × Option Value} (h : conflictFilter w key names r = .ok r') :
    ∃ cs : List ColumnBind, cs.map (·.column) = names ∧ (∀ c ∈ cs, c ∈ w.columns ∧ Placeable c) ∧
      r'.1 = (cs.map written).foldl (fun acc e => Entries.insert e.1 e.2 acc) r.1 := by
  induction names generalizing r with
  | nil =>
    cases h
    exact ⟨[], rfl, nofun, rfl⟩
  | cons name names ih =>
    obtain ⟨d, hint⟩ := r
    unfold conflictFilter at h
    cases hcolumn : w.column? name with
    | none =>
      rw [hcolumn] at h
      cases h
    | some c =>
      rw [hcolumn] at h
      obtain ⟨x, hx, h⟩ := bind_eq_ok.mp h
      obtain ⟨hmem, rfl⟩ := column?_eq_some hcolumn
      obtain ⟨hc, rfl⟩ := placeable_of_stored hx
      obtain ⟨cs, hnames, hcs, hr'⟩ := ih h
      refine ⟨c :: cs, by rw [List.map_cons, hnames], ?_, hr'⟩
      exact List.forall_mem_cons.mpr ⟨⟨hmem, hc⟩, hcs⟩

/-! ## Parts of an upsert -/

/-- What an upsert sets in any case. -/
def setPart (st : Statement) : Document := Document.child (st.document.getD []) "$set"

/-- What an upsert sets in a document that it creates. -/
def newPart (st : Statement) : Document := Document.child (st.document.getD []) "$setOnInsert"

/-- The document that an upsert makes where its filter finds none. -/
def createdBy (st : Statement) : Document :=
  overlay (newPart st) (overlay (setPart st) (overlay st.filter []))

theorem child_updateParts (a b : Document) :
    Document.child (updatePart "$set" a ++ updatePart "$setOnInsert" b) "$set" = a ∧
    Document.child (updatePart "$set" a ++ updatePart "$setOnInsert" b) "$setOnInsert" = b := by
  unfold updatePart
  cases a <;> cases b <;> exact ⟨rfl, rfl⟩

/-- The columns that the filter of an upsert compares, those that it sets in any case, and those
that it sets in a new document. -/
structure Splits (s : Scope) (u : Upsert) (st : Statement) (filter sets news : List ColumnBind) :
    Prop where
  filter_columns : filter.map (·.column) = u.conflict
  filter_mem : ∀ c ∈ filter, c ∈ u.insert.columns
  sets_eq : sets = u.updates.filterMap u.insert.column?
  news_eq : news = u.insert.columns.filter fun c => !Entries.hasKey c.column (setPart st)
  placeable : ∀ c ∈ sets ++ news, Placeable c
  filter_written : st.filter = Entries.ofList (filter.map written)
  sets_written : setPart st = Entries.ofList (sets.map written)
  news_written : newPart st =
    newId (keyPath? s) st.filter (setPart st) (Entries.ofList (news.map written))

theorem upsert_splits {s : Scope} {u : Upsert} {st : Statement} (h : upsert s u = .ok st) :
    ∃ filter sets news, Splits s u st filter sets news := by
  unfold upsert at h
  split at h
  · cases h
  · obtain ⟨⟨filter, hint⟩, hfilter, h⟩ := bind_eq_ok.mp h
    obtain ⟨sets, hsets, h⟩ := bind_eq_ok.mp h
    obtain ⟨news, hnews, h⟩ := bind_eq_ok.mp h
    obtain ⟨hst, hdocument⟩ : st.filter = filter ∧ st.document = some (updatePart "$set" sets ++
        updatePart "$setOnInsert" (newId (keyPath? s) filter sets news)) := by
      cases h
      exact ⟨rfl, rfl⟩
    obtain ⟨hset, hnew⟩ := child_updateParts sets (newId (keyPath? s) filter sets news)
    have hset : setPart st = sets := by rw [setPart, hdocument, Option.getD_some, hset]
    have hnew : newPart st = newId (keyPath? s) filter sets news := by
      rw [newPart, hdocument, Option.getD_some, hnew]
    obtain ⟨cs, hcolumns, hcs, hfilter⟩ := conflictFilter_written hfilter
    obtain ⟨hsetPlaced, hsets⟩ := storeAll_written hsets
    obtain ⟨hnewPlaced, hnews⟩ := storeAll_written hnews
    refine ⟨cs, _, _, hcolumns, fun c hc => (hcs c hc).1, rfl, rfl, ?_, hst.trans hfilter,
      hset.trans hsets, ?_⟩
    · rw [hset]
      exact List.forall_mem_append.mpr ⟨hsetPlaced, hnewPlaced⟩
    · rw [hset, hnew, hst, hnews]
      rfl

/-! ## Columns that are not in each other's way -/

section
variable {w : Insert} (hapart : w.columnNames.Pairwise Apart)
include hapart

theorem eq_of_column {c e : ColumnBind} (hc : c ∈ w.columns) (he : e ∈ w.columns)
    (h : c.column = e.column) : c = e :=
  (eq_or_apart hapart c hc e he).resolve_right fun happ => not_apart_self _ (h ▸ happ)

theorem getPath?_plainDocument {c : ColumnBind} (hc : c ∈ w.columns) :
    Document.getPath? (plainDocument w) c.column = some (storedValue c) :=
  getPath?_written (eq_or_apart hapart) hc

theorem mem_ofList_written {cs : List ColumnBind} (hcs : ∀ c ∈ cs, c ∈ w.columns)
    {e : String × Value} : e ∈ Entries.ofList (cs.map written) ↔ ∃ c ∈ cs, written c = e := by
  rw [← List.mem_map]
  refine ⟨Entries.mem_ofList, Entries.mem_ofList_of_agree ?_⟩
  simp only [List.forall_mem_map]
  intro c hc c' hc' hcolumn
  exact congrArg written (eq_of_column hapart (hcs c hc) (hcs c' hc') hcolumn)

end

/-! ## The key of the store -/

/-- The single key is stored under another path, and nothing else is put at the key of the store. -/
def Mirrored (s : Scope) (w : Insert) (path : String) : Prop :=
  keyPath? s = some path ∧ path ≠ idField ∧ idField ∉ w.columnNames

/-- A column inside of the key of the store. -/
def InsideId (path : String) : Prop := path ≠ idField ∧ (segments path).head? = some idField

theorem segments_idField : segments idField = [idField] := segments_of_undotted (by decide)

theorem apart_idField {path : String} (hne : path ≠ idField) (hinside : ¬InsideId path) :
    Apart path idField := by
  have hhead : (segments path).head? ≠ some idField := fun heq => hinside ⟨hne, heq⟩
  unfold Apart
  rw [segments_idField]
  cases hs : segments path with
  | nil => exact absurd hs (segments_ne_nil path)
  | cons k ks =>
    rw [hs] at hhead
    have hk : k ≠ idField := fun heq => hhead (congrArg some heq)
    simp only [List.cons_prefix_cons, hk, Ne.symm hk, false_and, not_false_eq_true, and_self]

theorem setPath_idField (d : Document) (v : Value) :
    d.setPath idField v = Entries.insert idField v d := by
  unfold Document.setPath
  rw [segments_idField]
  rfl

theorem getPath?_idField (d : Document) : Document.getPath? d idField = d.lookup idField := by
  unfold Document.getPath? Value.getPath?
  rw [segments_idField, Value.atSegments?]
  cases d.lookup idField <;> rfl

theorem newId_kept {path : String} {filter sets news : Document} (h : path = idField ∨
    idField ∈ Entries.keys sets ∨ idField ∈ Entries.keys news) :
    newId (some path) filter sets news = news := by
  unfold newId
  dsimp only
  rw [if_pos]
  simp only [Bool.or_eq_true, beq_iff_eq, Entries.hasKey_iff]
  exact or_assoc.mpr h

theorem withId_kept {path : String} {d : Document} (h : path = idField ∨ idField ∈ Entries.keys d) :
    withId (some path) d = d := by
  unfold withId
  dsimp only
  rw [if_pos]
  simp only [Bool.or_eq_true, beq_iff_eq, Entries.hasKey_iff]
  exact h

theorem newId_added {path : String} {filter sets news : Document} {v : Value} (hne : path ≠ idField)
    (hset : idField ∉ Entries.keys sets) (hnew : idField ∉ Entries.keys news)
    (hv : (filter.lookup path).or (news.lookup path) = some v) :
    newId (some path) filter sets news = Entries.insert idField v news := by
  unfold newId
  dsimp only
  rw [if_neg, hv]
  simp only [Bool.or_eq_true, beq_iff_eq, Entries.hasKey_iff, not_or]
  exact ⟨⟨hne, hset⟩, hnew⟩

theorem withId_added {path : String} {d : Document} {v : Value} (hne : path ≠ idField)
    (hid : idField ∉ Entries.keys d) (hv : Document.getPath? d path = some v) :
    withId (some path) d = if v.isNull then d else Entries.insert idField v d := by
  unfold withId
  dsimp only
  rw [if_neg, Document.at?_eq, hv, Option.bind_some, nonNull]
  · cases v.isNull <;> rfl
  · simp only [Bool.or_eq_true, beq_iff_eq, Entries.hasKey_iff, not_or]
    exact ⟨hne, hid⟩

/-! ## Paths that an upsert writes -/

/-- An upsert adds nothing for a new document but the key, unless that is written already. -/
theorem newId_cases (key : Option String) (filter sets news : Document) :
    newId key filter sets news = news ∨ ∃ v, idField ∉ Entries.keys sets ∧
      idField ∉ Entries.keys news ∧ newId key filter sets news = Entries.insert idField v news := by
  cases key with
  | none => exact .inl rfl
  | some path =>
    unfold newId
    dsimp only
    split
    · exact .inl rfl
    · rename_i hfree
      simp only [Bool.or_eq_true, not_or, Entries.hasKey_iff] at hfree
      cases (filter.lookup path).or (news.lookup path) with
      | none => exact .inl rfl
      | some v => exact .inr ⟨v, hfree.1.2, hfree.2, rfl⟩

namespace Splits

section
variable {s : Scope} {u : Upsert} {st : Statement} {filter sets news : List ColumnBind}
  (h : Splits s u st filter sets news)
include h

theorem sets_mem : ∀ c ∈ sets, c ∈ u.insert.columns := by
  rw [h.sets_eq]
  intro c hc
  obtain ⟨name, -, hname⟩ := List.mem_filterMap.mp hc
  exact (column?_eq_some hname).1

theorem mem_news {c : ColumnBind} :
    c ∈ news ↔ c ∈ u.insert.columns ∧ c.column ∉ Entries.keys (setPart st) := by
  rw [h.news_eq, List.mem_filter, ← Entries.hasKey_iff, Bool.not_eq_true', Bool.not_eq_true]

/-- What is added for a new document is set there alone. -/
theorem newPart_cases : newPart st = Entries.ofList (news.map written) ∨
    ∃ v, idField ∉ Entries.keys (setPart st) ∧
      idField ∉ Entries.keys (Entries.ofList (news.map written)) ∧
      newPart st = Entries.insert idField v (Entries.ofList (news.map written)) := by
  rw [h.news_written]
  exact newId_cases _ _ _ _

theorem mem_newPart {e : String × Value} (he : e ∈ Entries.ofList (news.map written)) :
    e ∈ newPart st := by
  obtain heq | ⟨v, -, hfree, heq⟩ := h.newPart_cases
  · rw [heq]
    exact he
  · rw [heq]
    exact (Entries.mem_insert_new hfree).mpr (.inr he)

/-- The column that the single key is stored in. -/
theorem key_compared {path : String} (hconflict : u.conflict = [path]) :
    ∃ c ∈ u.insert.columns, c.column = path ∧ st.filter.lookup path = some (storedValue c) := by
  have hcolumns := h.filter_columns.trans hconflict
  obtain ⟨c, rfl, rfl⟩ := List.map_eq_singleton_iff.mp hcolumns
  refine ⟨c, h.filter_mem c (List.mem_singleton_self c), rfl, ?_⟩
  rw [h.filter_written]
  exact List.lookup_cons_self

variable (hapart : u.insert.columnNames.Pairwise Apart)
include hapart

theorem mem_setPart {e : String × Value} : e ∈ setPart st ↔ ∃ c ∈ sets, written c = e := by
  rw [h.sets_written]
  exact mem_ofList_written hapart h.sets_mem

theorem mem_ofNews {e : String × Value} :
    e ∈ Entries.ofList (news.map written) ↔ ∃ c ∈ news, written c = e :=
  mem_ofList_written hapart fun _ hc => (h.mem_news.mp hc).1

/-- Each inserted column is set in any case or in a new document. -/
theorem mem_columns {c : ColumnBind} : c ∈ u.insert.columns ↔ c ∈ sets ∨ c ∈ news := by
  constructor
  · intro hc
    by_cases hset : c.column ∈ Entries.keys (setPart st)
    · obtain ⟨e, he, hcolumn⟩ := List.mem_map.mp hset
      obtain ⟨c', hc', rfl⟩ := (h.mem_setPart hapart).mp he
      cases eq_of_column hapart (h.sets_mem c' hc') hc hcolumn
      exact .inl hc'
    · exact .inr (h.mem_news.mpr ⟨hc, hset⟩)
  · rintro (hc | hc)
    · exact h.sets_mem c hc
    · exact (h.mem_news.mp hc).1

theorem all_placeable : ∀ c ∈ u.insert.columns, Placeable c := by
  intro c hc
  exact h.placeable c (List.mem_append.mpr ((h.mem_columns hapart).mp hc))

theorem mem_written {e : String × Value} : e ∈ u.insert.columns.map written ↔
    e ∈ st.filter ++ setPart st ++ Entries.ofList (news.map written) := by
  rw [List.mem_append, List.mem_append, h.mem_setPart hapart, h.mem_ofNews hapart,
    h.filter_written, mem_ofList_written hapart h.filter_mem, List.mem_map]
  constructor
  · rintro ⟨c, hc, rfl⟩
    exact ((h.mem_columns hapart).mp hc).imp (fun hc => .inr ⟨c, hc, rfl⟩) fun hc => ⟨c, hc, rfl⟩
  · rintro ((⟨c, hc, rfl⟩ | ⟨c, hc, rfl⟩) | ⟨c, hc, rfl⟩)
    · exact ⟨c, h.filter_mem c hc, rfl⟩
    · exact ⟨c, h.sets_mem c hc, rfl⟩
    · exact ⟨c, (h.mem_news.mp hc).1, rfl⟩

theorem mem_filter_keys {path : String} : path ∈ Entries.keys st.filter ↔ path ∈ u.conflict := by
  rw [h.filter_written, ← h.filter_columns, Entries.keys, List.mem_map, List.mem_map]
  constructor
  · rintro ⟨e, he, rfl⟩
    obtain ⟨c, hc, rfl⟩ := (mem_ofList_written hapart h.filter_mem).mp he
    exact ⟨c, hc, rfl⟩
  · rintro ⟨c, hc, rfl⟩
    exact ⟨written c, (mem_ofList_written hapart h.filter_mem).mpr ⟨c, hc, rfl⟩, rfl⟩

theorem disjoint {path : String} (hset : path ∈ Entries.keys (setPart st)) :
    path ∉ Entries.keys (newPart st) := by
  have hnews : path ∉ Entries.keys (Entries.ofList (news.map written)) := by
    intro hmem
    obtain ⟨e, he, rfl⟩ := List.mem_map.mp hmem
    obtain ⟨c, hc, rfl⟩ := (h.mem_ofNews hapart).mp he
    exact (h.mem_news.mp hc).2 hset
  obtain heq | ⟨v, hid, -, heq⟩ := h.newPart_cases
  · rw [heq]
    exact hnews
  · rw [heq, Entries.mem_keys_insert, not_or]
    exact ⟨fun hpath => hid (hpath ▸ hset), hnews⟩

theorem written_once {path : String} (hpath : path ∈ u.insert.columnNames) :
    path ∈ Entries.keys (setPart st) ↔ path ∉ Entries.keys (newPart st) := by
  refine ⟨h.disjoint hapart, fun hnew => Decidable.not_not.mp fun hset => hnew ?_⟩
  obtain ⟨c, hc, rfl⟩ := List.mem_map.mp hpath
  have hmem := (h.mem_ofNews hapart).mpr ⟨c, h.mem_news.mpr ⟨hc, hset⟩, rfl⟩
  exact List.mem_map.mpr ⟨written c, h.mem_newPart hmem, rfl⟩

/-! ## The created document -/

theorem insertDocument_eq :
    insertDocument s u.insert = .ok (withId (keyPath? s) (plainDocument u.insert)) :=
  map_eq_ok.mpr ⟨_, placeAll_eq_ok.mpr ⟨h.all_placeable hapart, rfl⟩, rfl⟩

theorem overlay_parts :
    overlay (Entries.ofList (news.map written)) (overlay (setPart st) (overlay st.filter [])) =
      plainDocument u.insert := by
  rw [← Document.overlay_append, ← Document.overlay_append, ← List.append_assoc]
  exact Document.overlay_eq_of_mem_iff (written_tolerate (eq_or_apart hapart)) fun e => (h.mem_written hapart).symm

theorem lookup_createdBy {key : String} (hkey : key ≠ idField) :
    (createdBy st).lookup key = (plainDocument u.insert).lookup key := by
  rw [createdBy, ← h.overlay_parts hapart]
  obtain heq | ⟨v, -, hfree, heq⟩ := h.newPart_cases
  · rw [heq]
  · obtain ⟨before, after, hnews, hinsert⟩ := Entries.insert_new hfree v
    rw [heq, hinsert, hnews, Document.overlay_append, Document.overlay_append, Document.overlay_cons]
    apply Document.lookup_overlay_congr
    rw [setPath_idField, Entries.lookup_insert_of_ne hkey]

theorem idField_written (hid : idField ∈ u.insert.columnNames) :
    idField ∈ Entries.keys (setPart st) ∨ idField ∈ Entries.keys (Entries.ofList (news.map written)) := by
  obtain ⟨c, hc, hcolumn⟩ := List.mem_map.mp hid
  rw [← hcolumn]
  refine ((h.mem_columns hapart).mp hc).imp (fun hset => ?_) fun hnew => ?_
  · exact List.mem_map.mpr ⟨written c, (h.mem_setPart hapart).mpr ⟨c, hset, rfl⟩, rfl⟩
  · exact List.mem_map.mpr ⟨written c, (h.mem_ofNews hapart).mpr ⟨c, hnew, rfl⟩, rfl⟩

theorem idField_free (hid : idField ∉ u.insert.columnNames) :
    idField ∉ Entries.keys (setPart st) ∧
      idField ∉ Entries.keys (Entries.ofList (news.map written)) := by
  constructor
  · intro hmem
    obtain ⟨e, he, hkey⟩ := List.mem_map.mp hmem
    obtain ⟨c, hc, rfl⟩ := (h.mem_setPart hapart).mp he
    exact hid (List.mem_map.mpr ⟨c, h.sets_mem c hc, hkey⟩)
  · intro hmem
    obtain ⟨e, he, hkey⟩ := List.mem_map.mp hmem
    obtain ⟨c, hc, rfl⟩ := (h.mem_ofNews hapart).mp he
    exact hid (List.mem_map.mpr ⟨c, (h.mem_news.mp hc).1, hkey⟩)

/-- Without a key to mirror neither of the two adds one. -/
theorem unmirrored (hm : ∀ path, ¬Mirrored s u.insert path) :
    newPart st = Entries.ofList (news.map written) ∧
      withId (keyPath? s) (plainDocument u.insert) = plainDocument u.insert := by
  rw [h.news_written]
  cases hkey : keyPath? s with
  | none => exact ⟨rfl, rfl⟩
  | some path =>
    have htaken : path = idField ∨ idField ∈ u.insert.columnNames := by
      refine Decidable.or_iff_not_imp_left.mpr fun hne => Decidable.not_not.mp fun hfree => ?_
      exact hm path ⟨hkey, hne, hfree⟩
    refine ⟨newId_kept (htaken.imp_right (h.idField_written hapart)), withId_kept ?_⟩
    refine htaken.imp_right fun hid => ?_
    obtain ⟨c, hc, hcolumn⟩ := List.mem_map.mp hid
    have hget := getPath?_plainDocument hapart hc
    have hcolumn : c.column = idField := hcolumn
    rw [hcolumn, getPath?_idField] at hget
    exact List.mem_map.mpr ⟨_, Entries.mem_of_lookup hget, rfl⟩

/-- The key is added as it is stored, and by an insert if it is not null. -/
theorem mirrored {path : String} (hm : Mirrored s u.insert path) (hconflict : u.conflict = [path])
    (hinside : ∀ c ∈ u.insert.columns, ¬InsideId c.column) : ∃ v,
      Document.getPath? (plainDocument u.insert) path = some v ∧
      (plainDocument u.insert).lookup idField = none ∧
      createdBy st = Entries.insert idField v (plainDocument u.insert) ∧
      withId (keyPath? s) (plainDocument u.insert) = if v.isNull then plainDocument u.insert
        else Entries.insert idField v (plainDocument u.insert) := by
  obtain ⟨hkey, hne, hfree⟩ := hm
  obtain ⟨c, hc, rfl, hlookup⟩ := h.key_compared hconflict
  have hget := getPath?_plainDocument hapart hc
  have hothers : ∀ e ∈ u.insert.columns.map written, Apart e.1 idField := by
    refine List.forall_mem_map.mpr fun c hc => apart_idField (fun heq => hfree ?_) (hinside c hc)
    exact List.mem_map.mpr ⟨c, hc, heq⟩
  obtain ⟨hset, hnew⟩ := h.idField_free hapart hfree
  have hnone : (plainDocument u.insert).lookup idField = none := by
    rw [← getPath?_idField]
    exact (Document.getPath?_overlay_of_apart hothers).trans (Document.getPath?_nil idField)
  refine ⟨storedValue c, hget, hnone, ?_, ?_⟩
  · have hadded : newPart st =
        Entries.insert idField (storedValue c) (Entries.ofList (news.map written)) := by
      rw [h.news_written, hkey, newId_added hne hset hnew (v := storedValue c)]
      rw [hlookup, Option.some_or]
    have hmem : ∀ e, e ∈ st.filter ++ (setPart st ++ newPart st) ↔
        e ∈ u.insert.columns.map written ++ [(idField, storedValue c)] := by
      intro e
      rw [hadded, List.mem_append, List.mem_append, List.mem_append, h.mem_written hapart,
        Entries.mem_insert_new hnew, List.mem_append, List.mem_append,
        List.mem_singleton, or_comm (a := e = _), or_assoc, or_assoc]
    have htolerates : ∀ e ∈ u.insert.columns.map written ++ [(idField, storedValue c)],
        ∀ e' ∈ u.insert.columns.map written ++ [(idField, storedValue c)], Tolerates e e' := by
      intro e he e' he'
      rcases List.mem_append.mp he with he | he <;> rcases List.mem_append.mp he' with he' | he'
      · exact written_tolerate (eq_or_apart hapart) e he e' he'
      · cases List.mem_singleton.mp he'
        exact .inr (hothers e he)
      · cases List.mem_singleton.mp he
        exact .inr (hothers e' he').symm
      · cases List.mem_singleton.mp he
        cases List.mem_singleton.mp he'
        exact .inl rfl
    rw [createdBy, ← Document.overlay_append, ← Document.overlay_append,
      Document.overlay_eq_of_mem_iff htolerates hmem, Document.overlay_append, ← setPath_idField,
      Document.overlay_cons, Document.overlay_nil, plainDocument]
  · rw [hkey, withId_added hne (Entries.lookup_eq_none_iff.mp hnone) hget]

end
end Splits

/-- The conflict column of a single key is the path of the key. -/
theorem conflict_single {s : Scope} {p : Planner} (hp : p.policy = .explicit) {payload : Payload}
    {returning : Bool} {u : Upsert} (hplan : p.upsert s payload returning = .ok u) {path : String}
    (hkey : keyPath? s = some path) : u.conflict = [path] := by
  obtain ⟨key, hsingle, rfl⟩ := Option.map_eq_some_iff.mp hkey
  obtain ⟨w, -, hu⟩ := bind_eq_ok.mp hplan
  cases hu
  show p.keyColumns s = _
  rw [Planner.keyColumns_single hsingle, Planner.column, hp]
  rfl

/-- What an upsert sets in any case it does not set in a new document as well, each inserted column
is set in one of the two ways, and the filter compares the conflict columns. A new document is the
one that an insert stores, up to the key of the store. That is the same as well, unless the single
key is null and stored under another path: then only the upsert has it as `_id`. -/
theorem created_as_inserted {s : Scope} {p : Planner} (hp : p.policy = .explicit)
    {payload : Payload} {returning : Bool} {u : Upsert}
    (hplan : p.upsert s payload returning = .ok u) {st : Statement} (hst : upsert s u = .ok st)
    (hapart : u.insert.columnNames.Pairwise Apart) :
    (∀ path ∈ Entries.keys (setPart st), path ∉ Entries.keys (newPart st)) ∧
    (∀ path ∈ u.insert.columnNames,
      path ∈ Entries.keys (setPart st) ↔ path ∉ Entries.keys (newPart st)) ∧
    (∀ path, path ∈ Entries.keys st.filter ↔ path ∈ u.conflict) ∧
    ∃ d, insertDocument s u.insert = .ok d ∧
      (∀ key, key ≠ idField → (createdBy st).lookup key = d.lookup key) ∧
      ((∀ path ∈ u.insert.columnNames, ¬InsideId path) →
        (createdBy st = d ↔
          ¬∃ path, Mirrored s u.insert path ∧ Document.getPath? d path = some .null)) := by
  obtain ⟨filter, sets, news, h⟩ := upsert_splits hst
  refine ⟨fun path => h.disjoint hapart, fun path => h.written_once hapart,
    fun path => h.mem_filter_keys hapart, _, h.insertDocument_eq hapart, ?_, ?_⟩
  · intro key hkey
    rw [h.lookup_createdBy hapart hkey]
    obtain heq | ⟨path, v, w, -, -, -, -, heq⟩ :=
      withId_cases (keyPath? s) (plainDocument u.insert)
    · rw [heq]
    · rw [heq, Entries.lookup_insert_of_ne hkey]
  · intro hinside
    by_cases hm : ∃ path, Mirrored s u.insert path
    · obtain ⟨path, hm⟩ := hm
      have hpath : ∀ path', Mirrored s u.insert path' → path' = path :=
        fun path' hm' => Option.some.inj (hm'.1.symm.trans hm.1)
      obtain ⟨v, hget, hnone, hcreated, hinserted⟩ := h.mirrored hapart hm
        (conflict_single hp hplan hm.1) fun c hc => hinside _ (List.mem_map_of_mem hc)
      rw [hcreated, hinserted]
      cases hnull : v.isNull with
      | true =>
        rw [if_pos rfl]
        have hv : v = .null := by cases v <;> first | rfl | cases hnull
        refine iff_of_false (fun heq => ?_) (fun hnot => hnot ⟨path, hm, hv ▸ hget⟩)
        rw [← heq, Entries.lookup_insert_self] at hnone
        cases hnone
      | false =>
        rw [if_neg Bool.false_ne_true]
        refine iff_of_true rfl ?_
        rintro ⟨path', hm', hget'⟩
        cases hpath path' hm'
        rw [Document.getPath?_insert_of_ne, hget] at hget'
        · cases Option.some.inj hget'
          cases hnull
        · intro hhead
          obtain ⟨x, hx⟩ := Document.lookup_head_of_getPath? hhead hget
          rw [hnone] at hx
          cases hx
    · obtain ⟨hnew, hinserted⟩ := h.unmirrored hapart fun path hpath => hm ⟨path, hpath⟩
      rw [hinserted, createdBy, hnew, h.overlay_parts hapart]
      exact iff_of_true rfl fun ⟨path, hpath, _⟩ => hm ⟨path, hpath⟩

/-! ## A pen without a code -/

def pen : Entity :=
  ⟨"Pen", .entity, some "pens",
    [("code", ⟨.scalar "string", true, false, []⟩), ("name", .ofType (.scalar "string"))], []⟩

def pens : Scope := ⟨⟨[("Pen", pen)], []⟩, pen, ⟨"core", [], none⟩⟩

def pensPlanner : Planner := ⟨.explicit, [], [("Pen", Capability.all)]⟩

def uncoded : Payload := .document [("code", .null), ("name", .str "pen")]

def penUpsert : Upsert :=
  ⟨⟨"pens", [⟨"code", .null, "string"⟩, ⟨"name", .str "pen", "string"⟩], []⟩, ["code"], ["name"]⟩

/-- The upsert creates a pen with the null as its key, and the insert one without a key. -/
theorem uncoded_differs : pensPlanner.upsert pens uncoded false = .ok penUpsert ∧
    penUpsert.insert.columnNames.Pairwise Apart ∧
    ∃ st d, upsert pens penUpsert = .ok st ∧ insertDocument pens penUpsert.insert = .ok d ∧
      createdBy st ≠ d := by
  have hplan : pensPlanner.upsert pens uncoded false = .ok penUpsert := rfl
  have hapart : penUpsert.insert.columnNames.Pairwise Apart := by decide
  obtain ⟨st, hst⟩ : ∃ st, upsert pens penUpsert = .ok st := ⟨_, rfl⟩
  obtain ⟨-, -, -, d, hd, -, hsame⟩ := created_as_inserted rfl hplan hst hapart
  have hinside : ∀ path ∈ penUpsert.insert.columnNames, ¬InsideId path := by
    simp only [InsideId]
    decide
  have hinserted : insertDocument pens penUpsert.insert =
      .ok [("code", .null), ("name", .str "pen")] := rfl
  refine ⟨hplan, hapart, st, d, hst, hd, fun heq => ?_⟩
  refine (hsame hinside).mp heq ⟨"code", ⟨rfl, by decide, by decide⟩, ?_⟩
  cases hd.symm.trans hinserted
  rfl

end Polystore.Documents
