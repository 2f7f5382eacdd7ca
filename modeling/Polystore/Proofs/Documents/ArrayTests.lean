import Polystore.Proofs.Documents.Matching
import Polystore.Proofs.Documents.ReadingBack

/-! # Array tests and stored arrays

An array is stored as one value of the type of its field, and a test of it asks for values of the
type of its elements. Both are the same values, but for identifiers: whether they are stored as
texts is decided by the id of the type, and a collection may be asked for texts that it is not
stored with. -/

namespace Polystore
set_option autoImplicit false

/-! ## Sets -/

namespace Value

/-- What keeps equal members equal and others apart keeps the same members. -/
theorem dedup_map {P : Value → Prop} {f : Value → Value}
    (hf : ∀ a b, P a → P b → same (f a) (f b) = same a b) {vs : List Value} (h : ∀ v ∈ vs, P v) :
    dedup (vs.map f) = (dedup vs).map f := by
  have hfold : ∀ kept : List Value, (∀ v ∈ kept, P v) →
      (vs.map f).foldl (fun kept v => if kept.any (same v) then kept else kept ++ [v])
          (kept.map f) =
        (vs.foldl (fun kept v => if kept.any (same v) then kept else kept ++ [v]) kept).map f := by
    induction vs with
    | nil => exact fun _ _ => rfl
    | cons v vs ih =>
      obtain ⟨hv, hvs⟩ := List.forall_mem_cons.mp h
      intro kept hkept
      have hany : (kept.map f).any (same (f v)) = kept.any (same v) := by
        rw [List.any_map, Bool.eq_iff_iff, List.any_eq_true, List.any_eq_true]
        refine exists_congr fun a => and_congr_right fun ha => ?_
        rw [Function.comp_apply, hf v a hv (hkept a ha)]
      rw [List.map_cons, List.foldl_cons, List.foldl_cons, hany]
      split
      · exact ih hvs kept hkept
      · have hmore : ∀ a ∈ kept ++ [v], P a := by
          simpa only [List.forall_mem_append, List.forall_mem_singleton] using ⟨hkept, hv⟩
        rw [← ih hvs _ hmore, List.map_append, List.map_singleton]
  exact hfold [] nofun

/-- Every member of a list is kept, or equals one that is. -/
theorem exists_mem_dedup {vs : List Value} {v : Value} (h : v ∈ vs) :
    ∃ x ∈ dedup vs, x = v ∨ same v x = true := by
  have hfold : ∀ kept, (∃ x ∈ kept, x = v ∨ same v x = true) ∨ v ∈ vs →
      ∃ x ∈ vs.foldl (fun kept v => if kept.any (same v) then kept else kept ++ [v]) kept,
        x = v ∨ same v x = true := by
    clear h
    induction vs with
    | nil => exact fun kept hkept => hkept.resolve_right List.not_mem_nil
    | cons w vs ih =>
      intro kept hkept
      rw [List.foldl_cons]
      apply ih
      obtain ⟨x, hx, hsame⟩ | hmem := hkept
      · refine .inl ⟨x, ?_, hsame⟩
        split
        · exact hx
        · exact List.mem_append_left _ hx
      · rcases List.mem_cons.mp hmem with rfl | hmem
        · left
          split
          · rename_i hany
            obtain ⟨x, hx, hsame⟩ := List.any_eq_true.mp hany
            exact ⟨x, hx, .inr hsame⟩
          · exact ⟨v, List.mem_append_right _ List.mem_cons_self, .inl rfl⟩
        · exact .inr hmem
  exact hfold [] (.inr h)

/-- A stored array has all of some values, up to equality of values. -/
def HasAll (stored : Value) (vs : List Value) : Prop :=
  ∃ items, stored = .list items ∧ ∀ v ∈ vs, ∃ x ∈ items, x = v ∨ same v x = true

theorem hasAll_collect (k : TypeRef.Wrapper) (vs : List Value) :
    HasAll (UserType.collect k vs) vs := by
  refine ⟨_, rfl, fun v hv => ?_⟩
  split
  · exact exists_mem_dedup hv
  · exact ⟨v, hv, .inl rfl⟩

end Value

namespace Documents

open UserType (convertItems collect)

/-! ## Elements of stored collections -/

section
variable {typeId e : String} {vs ws : List Value}

theorem convertItems_mono {f g : Value → Except CodecError Value}
    (h : ∀ v x, f v = .ok x → g v = .ok x) (hws : convertItems f vs = .ok ws) :
    convertItems g vs = .ok ws := by
  induction vs generalizing ws with
  | nil => exact hws
  | cons v vs ih =>
    obtain ⟨w, hw, hws⟩ := bind_eq_ok.mp hws
    obtain ⟨rest, hrest, hws⟩ := bind_eq_ok.mp hws
    exact bind_eq_ok.mpr ⟨w, h v w hw, bind_eq_ok.mpr ⟨rest, ih hrest, hws⟩⟩

/-- A list is encoded as the collection of its encoded elements. -/
theorem encode_collection (he : elementTypeId? typeId = some e) {u : UserType}
    (hu : types.get e = .ok u) : ∃ k, ∀ {vs ws}, convertItems (types.encode e) vs = .ok ws →
      types.encode typeId (.list vs) = .ok (collect k ws) := by
  obtain ⟨k, item, hget, hwithin⟩ := get_collection he hu
  refine ⟨k, fun {vs ws} hws => ?_⟩
  have hitem : convertItems item.encode vs = .ok ws := by
    refine convertItems_mono (fun v x hx => hwithin v x ?_) hws
    unfold TypeTable.encode at hx
    rwa [hu] at hx
  unfold TypeTable.encode
  rw [hget]
  exact map_eq_ok.mpr ⟨ws, hitem, rfl⟩

/-- The elements of a collection that is stored with identifiers as texts are identifiers. -/
theorem textType_elements (he : elementTypeId? typeId = some e) (h : isTextType typeId = true) :
    isTextType e = true ∧ types.get e = .ok (.scalar .uuid) := by
  have hlower : Text.lowerAscii (Text.trim e) = Scalar.uuid.id := by
    simp only [isTextType, typeAmong, List.contains_cons, List.contains_nil, Bool.or_false,
      Bool.or_eq_true, beq_iff_eq] at h
    obtain h | h | h := h
    · obtain ⟨w, inner, hchars, -⟩ := elementTypeId?_eq_some he
      have hid := lower_trim h
      have hopen : '<' ∈ "uuid".toList := by
        rw [← hid, hchars, List.map_append]
        exact List.mem_append_right _ List.mem_cons_self
      exact absurd hopen (by decide)
    · exact lower_element (w := .list) he h
    · exact lower_element (w := .set) he h
  refine ⟨?_, get_scalar (by decide) hlower⟩
  unfold isTextType typeAmong
  dsimp only
  rw [hlower]
  rfl

/-- The form in which a collection has its elements. -/
def elementForm (typeId : String) (w : Value) : Value :=
  if isTextType typeId then uuidText w else w

/-- Identifiers are equal as texts just if they are equal. -/
theorem same_uuidText (a b : Value) (ha : Encoded (.scalar .uuid) a)
    (hb : Encoded (.scalar .uuid) b) :
    Value.same (uuidText a) (uuidText b) = Value.same a b := by
  cases ha with
  | null => cases hb <;> rfl
  | uuid u =>
    cases hb with
    | null => rfl
    | uuid v =>
      have htext : u.text = v.text ↔ u = v := by
        refine ⟨fun h => ?_, congrArg Uuid.text⟩
        have hread := congrArg Uuid.ofText? h
        rwa [Uuid.ofText?_text, Uuid.ofText?_text, Option.some_inj] at hread
      show (u.text == v.text) = (u == v)
      rw [Bool.eq_iff_iff, beq_iff_eq, beq_iff_eq, htext]

theorem uuidText_collect (k : TypeRef.Wrapper) (h : ∀ w ∈ ws, Encoded (.scalar .uuid) w) :
    uuidText (collect k ws) = collect k (ws.map uuidText) := by
  unfold collect
  rw [uuidText, Encoded.uuidTexts_eq]
  split
  · rw [Value.dedup_map same_uuidText h]
  · rfl

/-- The stored form of a collection is the collection of its elements in their form. -/
theorem storedForm_collect (path : String) (he : elementTypeId? typeId = some e)
    (hws : convertItems (types.encode e) vs = .ok ws) (k : TypeRef.Wrapper) :
    storedForm path typeId (collect k ws) = collect k (ws.map (elementForm typeId)) := by
  have hnoKey : isIdValue (collect k ws) = false := rfl
  unfold storedForm asText elementForm
  rw [hnoKey, Bool.and_false, Bool.false_or]
  cases htext : isTextType typeId with
  | false => exact congrArg (collect k) (List.map_id ws).symm
  | true =>
    obtain ⟨-, hget⟩ := textType_elements he htext
    have huuid : Storable (.scalar Scalar.uuid.id) (.scalar .uuid) := .scalar nofun
    apply uuidText_collect
    refine forall_convertItems (fun v w hw => huuid.encoded (v := v) ?_) hws
    unfold TypeTable.encode at hw
    rwa [hget] at hw

/-- An element is asked for as it is stored, unless only the test has its identifiers as texts. -/
theorem storedForm_eq_elementForm (path : String) (he : elementTypeId? typeId = some e)
    (w : Value) : storedForm path e w = elementForm typeId w ↔
      isTextType typeId = true ∨ (asText path e w = true → uuidText w = w) := by
  unfold storedForm elementForm
  cases htext : isTextType typeId with
  | true =>
    have hasked : asText path e w = true := by
      unfold asText
      rw [(textType_elements he htext).1, Bool.or_true]
    rw [if_pos hasked, if_pos rfl]
    exact iff_of_true rfl (.inl rfl)
  | false =>
    rw [if_neg Bool.false_ne_true]
    cases asText path e w with
    | true => simp only [if_true, Bool.false_eq_true, false_or, forall_const]
    | false => exact iff_of_true rfl (.inr nofun)

/-! ## Texts among identifiers -/

/-- An identifier or a collection of identifiers, as they are encoded. -/
def Identifiers (w : Value) : Prop :=
  Encoded (.scalar .uuid) w ∨ ∃ id k, Encoded (.collection id k (.scalar .uuid)) w

theorem identifiers_of_textType (htext : isTextType e = true)
    (hws : convertItems (types.encode e) vs = .ok ws) : ∀ w ∈ ws, Identifiers w := by
  refine forall_convertItems (fun v w hw => ?_) hws
  exact encoded_among (b := ⟨.null, e⟩) (s := .uuid) nofun htext hw

theorem eq_of_text_found {w x : Value} (hw : Encoded (.scalar .uuid) w)
    (hx : Encoded (.scalar .uuid) x) (h : x = uuidText w ∨ Value.same (uuidText w) x = true) :
    uuidText w = w := by
  cases hw with
  | null => rfl
  | uuid u => cases hx <;> rcases h with h | h <;> cases h

theorem map_eq_of_texts_found {xs : List Value} (hws : ∀ w ∈ ws, Encoded (.scalar .uuid) w)
    (hxs : ∀ x ∈ xs, Encoded (.scalar .uuid) x)
    (h : xs = ws.map uuidText ∨ Value.sameItems (ws.map uuidText) xs = true) :
    ws.map uuidText = ws := by
  induction ws generalizing xs with
  | nil => rfl
  | cons w ws ih =>
    cases xs with
    | nil => rcases h with h | h <;> cases h
    | cons x xs =>
      obtain ⟨hw, hws⟩ := List.forall_mem_cons.mp hws
      obtain ⟨hx, hxs⟩ := List.forall_mem_cons.mp hxs
      rw [List.map_cons] at h ⊢
      have hboth : (x = uuidText w ∨ Value.same (uuidText w) x = true) ∧
          (xs = ws.map uuidText ∨ Value.sameItems (ws.map uuidText) xs = true) := by
        obtain h | h := h
        · obtain ⟨hx, hxs⟩ := List.cons.inj h
          exact ⟨.inl hx, .inl hxs⟩
        · obtain ⟨hx, hxs⟩ := Bool.and_eq_true_iff.mp h
          exact ⟨.inr hx, .inr hxs⟩
      rw [eq_of_text_found hw hx hboth.1, ih hws hxs hboth.2]

/-- Among identifiers a text is found only for what has no identifiers. -/
theorem eq_of_texts_found {w x : Value} (hw : Identifiers w) (hx : Identifiers x)
    (h : x = uuidText w ∨ Value.same (uuidText w) x = true) : uuidText w = w := by
  obtain hw | ⟨id, k, hw⟩ := hw
  · obtain hx | ⟨id, k, hx⟩ := hx
    · exact eq_of_text_found hw hx h
    · cases hw with
      | null => rfl
      | uuid u => cases hx <;> rcases h with h | h <;> cases h
  · cases hw with
    | null => rfl
    | @list _ _ _ ws hws _ =>
      obtain ⟨xs, rfl, hxs⟩ : ∃ xs, x = .list xs ∧ ∀ x ∈ xs, Encoded (.scalar .uuid) x := by
        obtain hx | ⟨id, k, hx⟩ := hx
        · cases hx <;> rcases h with h | h <;> cases h
        · cases hx with
          | null => rcases h with h | h <;> cases h
          | @list _ _ _ xs hxs _ => exact ⟨xs, rfl, hxs⟩
      rw [uuidText, Encoded.uuidTexts_eq] at h ⊢
      refine congrArg Value.list (map_eq_of_texts_found hws hxs (h.imp_left ?_))
      exact Value.list.inj

theorem agree_of_hasAll (path : String) (he : elementTypeId? typeId = some e)
    (htext : isTextType e = true) (hws : convertItems (types.encode e) vs = .ok ws)
    {k : TypeRef.Wrapper} (h : (collect k (ws.map (elementForm typeId))).HasAll
      (ws.map (storedForm path e))) : ∀ w ∈ ws, storedForm path e w = elementForm typeId w := by
  intro w hw
  rw [storedForm_eq_elementForm path he]
  cases hstored : isTextType typeId with
  | true => exact .inl rfl
  | false =>
    right
    intro hasked
    have hkept : ∀ v ∈ ws, elementForm typeId v = v := fun v _ => by
      unfold elementForm
      rw [hstored, if_neg Bool.false_ne_true]
    obtain ⟨items, hitems, hfound⟩ := h
    obtain ⟨x, hx, halike⟩ := hfound _ (List.mem_map_of_mem hw)
    have hx : x ∈ ws := by
      rw [List.map_congr_left hkept, List.map_id'] at hitems
      cases hitems
      split at hx
      · exact Value.mem_of_mem_dedup hx
      · exact hx
    have hids := identifiers_of_textType htext hws
    rw [storedForm, if_pos hasked] at halike
    exact eq_of_texts_found (hids w hw) (hids x hx) halike

end

/-! ## Written documents -/

section
variable {s : Scope} {c : ColumnBind}

theorem placeAll_append (op : BindOp) (cs cs' : List ColumnBind) (d : Document) :
    placeAll op (cs ++ cs') d = placeAll op cs d >>= placeAll op cs' := by
  induction cs generalizing d with
  | nil => rfl
  | cons c cs ih =>
    rw [List.cons_append, placeAll, placeAll]
    cases place op c.column c.bind d with
    | error e => rfl
    | ok d' => exact ih d'

theorem storeAll_append (op : BindOp) (cs cs' : List ColumnBind) (d : Document) :
    storeAll op (cs ++ cs') d = storeAll op cs d >>= storeAll op cs' := by
  induction cs generalizing d with
  | nil => rfl
  | cons c cs ih =>
    rw [List.cons_append, storeAll, storeAll]
    cases stored op c.column c.bind with
    | error e => rfl
    | ok x => exact ih _

theorem storeAll_other {op : BindOp} {cs : List ColumnBind} {d d' : Document}
    (h : storeAll op cs d = .ok d') {key : String} (hkey : ∀ c ∈ cs, c.column ≠ key) :
    d'.lookup key = d.lookup key := by
  induction cs generalizing d with
  | nil =>
    cases h
    rfl
  | cons c cs ih =>
    obtain ⟨x, -, h⟩ := bind_eq_ok.mp h
    obtain ⟨hc, hcs⟩ := List.forall_mem_cons.mp hkey
    rw [ih h hcs]
    exact Entries.lookup_insert_of_ne hc.symm

/-- The column has a value in each insert and update that it is part of, unless a column behind it
is in its way. -/
def WrittenAs (s : Scope) (c : ColumnBind) (x : Value) : Prop :=
  (∀ (w : Insert) (d : Document) (before after : List ColumnBind),
    w.columns = before ++ c :: after → (∀ a ∈ after, Apart a.column c.column) →
    insertDocument s w = .ok d → Document.getPath? d c.column = some x) ∧
  ∀ (w : Update) (d : Document) (before after : List ColumnBind),
    w.sets = before ++ c :: after → (∀ a ∈ after, a.column ≠ c.column) →
    updateDocument w = .ok d → ∃ sets, d = entry "$set" (.map sets) ∧ sets.lookup c.column = some x

theorem writtenAs_form {w : Value} (hw : types.encode c.bind.typeId c.bind.value = .ok w) :
    WrittenAs s c (storedForm c.column c.bind.typeId w) := by
  constructor
  · intro write d before after hcolumns hapart hinsert
    obtain ⟨d, hplace, rfl⟩ := map_eq_ok.mp hinsert
    rw [hcolumns, placeAll_append] at hplace
    obtain ⟨d₁, -, hplace⟩ := bind_eq_ok.mp hplace
    obtain ⟨d₂, hc, hafter⟩ := bind_eq_ok.mp hplace
    obtain ⟨w', hw', rfl⟩ := place_form hc
    cases hw.symm.trans hw'
    have hget := placeAll_apart hafter hapart
    rw [Document.getPath?_setPath_self] at hget
    obtain heq | ⟨key, v, x, -, -, hnone, -, heq⟩ := withId_cases (keyPath? s) d
    · rw [heq, hget]
    · rw [heq, ← hget]
      apply Document.getPath?_insert_of_ne
      intro hhead
      obtain ⟨y, hy⟩ := Document.lookup_head_of_getPath? hhead hget
      rw [hnone] at hy
      cases hy
  · intro write d before after hsets hother hupdate
    have hne : write.sets.isEmpty = false := by
      rw [hsets]
      cases before <;> rfl
    unfold updateDocument at hupdate
    rw [hne] at hupdate
    obtain ⟨sets, hstore, hupdate⟩ := bind_eq_ok.mp hupdate
    cases hupdate
    refine ⟨sets, rfl, ?_⟩
    rw [hsets, storeAll_append] at hstore
    obtain ⟨d₁, -, hstore⟩ := bind_eq_ok.mp hstore
    obtain ⟨x, hx, hafter⟩ := bind_eq_ok.mp hstore
    obtain ⟨w', hw', rfl⟩ := stored_form hx
    cases hw.symm.trans hw'
    rw [storeAll_other hafter hother]
    exact Entries.lookup_insert_self

end

/-! ## Array tests -/

/-- How an array is tested; the operators that negate another one test the same. -/
def arrayKey? : Operator → Option String
  | .arrayContains | .arrayNotContains => some "$all"
  | .arrayOverlaps | .arrayNotOverlaps => some "$in"
  | _ => none

section
variable {s : Scope} {c : Condition} {key : String}

theorem condition_arrayTest (negate : Bool) (hkey : arrayKey? c.operator = some key) :
    condition s c negate = s.scalarType .filter c.property >>= fun typeId =>
      arrayTest (pathOf s.view c.property) typeId key c.value.toList (key == "$all")
        (isNegation c.operator ^^ (c.negated ^^ negate)) := by
  unfold condition
  cases hop : c.operator <;> rw [hop] at hkey <;> cases hkey
  case arrayContains | arrayOverlaps => simp only [isNegation, Bool.false_xor]; rfl
  case arrayNotContains | arrayNotOverlaps => simp only [isNegation, Bool.true_xor]; rfl

/-- An array is tested against the stored forms of its elements. -/
theorem arrayTest_form {path typeId e : String} {vs : List Value} {empty negated : Bool}
    {d : Document} (he : elementTypeId? typeId = some e)
    (h : arrayTest path typeId key vs empty negated = .ok d) :
    ∃ ws, convertItems (types.encode e) vs = .ok ws ∧
      d = if vs.isEmpty then constant (empty ^^ negated)
        else asNegated negated (testBy path key (.list (ws.map (storedForm path e)))) := by
  unfold arrayTest at h
  rw [he, Option.getD_some] at h
  cases hvs : vs.isEmpty with
  | true =>
    rw [hvs] at h
    cases h
    obtain rfl := List.isEmpty_iff.mp hvs
    exact ⟨[], rfl, rfl⟩
  | false =>
    rw [hvs] at h
    obtain ⟨list, hlist, rfl⟩ := map_eq_ok.mp h
    obtain ⟨asked, hasked, rfl⟩ := map_eq_ok.mp hlist
    obtain ⟨ws, hws, rfl⟩ := storedAll_form hasked
    exact ⟨ws, hws, rfl⟩

/-- What a test of an array asks for is what is stored of the same values, element by element, just
where identifiers are stored as texts in both or in neither. Then a document that was written with
the values has all that is asked for; of identifiers it has all only then. -/
theorem array_operands_stored {negate : Bool} {typeId e : String} {u : UserType}
    {vs : List Value} {d : Document} (hkey : arrayKey? c.operator = some key)
    (hvalue : c.value = .list vs) (htype : s.scalarType .filter c.property = .ok typeId)
    (he : elementTypeId? typeId = some e) (hu : types.get e = .ok u)
    (hd : condition s c negate = .ok d) :
    ∃ k ws, convertItems (types.encode e) vs = .ok ws ∧
      let path := pathOf s.view c.property
      let negated := isNegation c.operator ^^ (c.negated ^^ negate)
      let asked := ws.map (storedForm path e)
      let kept := collect k (ws.map (elementForm typeId))
      d = (if vs.isEmpty then constant ((key == "$all") ^^ negated)
        else asNegated negated (testBy path key (.list asked))) ∧
      WrittenAs s ⟨path, .list vs, typeId⟩ kept ∧
      (∀ w ∈ ws, storedForm path e w = elementForm typeId w ↔
        isTextType typeId = true ∨ (asText path e w = true → uuidText w = w)) ∧
      ((∀ w ∈ ws, storedForm path e w = elementForm typeId w) → kept.HasAll asked) ∧
      (isTextType e = true → kept.HasAll asked →
        ∀ w ∈ ws, storedForm path e w = elementForm typeId w) := by
  have hlist : c.value.toList = vs := by rw [hvalue, Value.toList]
  rw [condition_arrayTest negate hkey, htype, hlist] at hd
  obtain ⟨ws, hws, hform⟩ := arrayTest_form he hd
  obtain ⟨k, hcollection⟩ := encode_collection he hu
  have hkept := writtenAs_form (s := s) (c := ⟨pathOf s.view c.property, .list vs, typeId⟩)
    (hcollection hws)
  rw [storedForm_collect _ he hws] at hkept
  refine ⟨k, ws, hws, hform, hkept, fun w _ => storedForm_eq_elementForm _ he w, fun hall => ?_,
    fun htext => agree_of_hasAll _ he htext hws⟩
  rw [List.map_congr_left hall]
  exact Value.hasAll_collect k _

end

/-! ## An array of identifiers -/

def taggedDocs : Scope :=
  let entity : Entity :=
    ⟨"Doc", .entity, some "docs", [("tags", .ofType (.scalar "array<uuid>"))], []⟩
  ⟨⟨[("Doc", entity)], []⟩, entity, ⟨"core", [], none⟩⟩

def firstTag : ColumnBind := ⟨"tags", .list [.uuid firstId], "array<uuid>"⟩

theorem encode_firstTag :
    types.encode firstTag.bind.typeId firstTag.bind.value = .ok (.list [.uuid firstId]) := by
  have hget : types.get "array<uuid>" = .ok (.collection "array<uuid>" .array (.scalar .uuid)) :=
    (Storable.wrapped .array (.scalar (s := .uuid) nofun)).get_typeId
  unfold TypeTable.encode
  rw [show firstTag.bind.typeId = "array<uuid>" from rfl, hget]
  rfl

/-- The tag is stored as an identifier and asked for as a text, so that it is not found. -/
theorem firstTag_not_found :
    insertDocument taggedDocs ⟨"docs", [firstTag], []⟩ = .ok [("tags", .list [.uuid firstId])] ∧
    condition taggedDocs (.of "tags" .arrayContains (.list [.uuid firstId])) false =
      .ok (testBy "tags" "$all" (.list [.str firstId.text])) ∧
    ¬Value.HasAll (.list [.uuid firstId]) [.str firstId.text] := by
  have hinsert : insertDocument taggedDocs ⟨"docs", [firstTag], []⟩ =
      .ok [("tags", .list [.uuid firstId])] :=
    map_eq_ok.mpr ⟨_, bind_eq_ok.mpr ⟨_, bind_eq_ok.mpr
      ⟨_, lift_eq_ok.mpr encode_firstTag, rfl⟩, rfl⟩, rfl⟩
  have hcondition :
      condition taggedDocs (.of "tags" .arrayContains (.list [.uuid firstId])) false =
        .ok (testBy "tags" "$all" (.list [.str firstId.text])) := rfl
  have hkey : arrayKey? Operator.arrayContains = some "$all" := rfl
  have htype : taggedDocs.scalarType .filter "tags" = .ok "array<uuid>" := rfl
  have helement : elementTypeId? "array<uuid>" = some "uuid" := by decide +kernel
  have hregistered : types.get "uuid" = .ok (.scalar .uuid) := rfl
  obtain ⟨k, ws, hws, -, hwritten, hsame, -, hfound⟩ :=
    array_operands_stored hkey rfl htype helement hregistered hcondition
  cases hws
  have htags := hwritten.1 _ _ [] [] rfl nofun hinsert
  have hget : Document.getPath? [("tags", .list [.uuid firstId])] "tags" =
      some (.list [.uuid firstId]) := rfl
  have hkept := Option.some.inj (hget.symm.trans htags)
  have htext : isTextType "uuid" = true := by decide +kernel
  have harray : isTextType "array<uuid>" = false := by decide +kernel
  have hasText : asText "tags" "uuid" (.uuid firstId) = true := by rw [asText, htext, Bool.or_true]
  have hasked : storedForm "tags" "uuid" (.uuid firstId) = .str firstId.text := by
    rw [storedForm, if_pos hasText, uuidText]
  refine ⟨hinsert, hcondition, fun hall => ?_⟩
  rw [hkept, ← hasked] at hall
  have hagree := hfound htext hall _ List.mem_cons_self
  obtain h | h := (hsame _ List.mem_cons_self).mp hagree
  · rw [harray] at h
    cases h
  · cases h hasText

end Documents
end Polystore
