import Polystore.Documents.Storing
import Polystore.Proofs.Text.Trimming

/-! # Type ids of stored fields

Scalars and lists, sets and arrays of them are found in the type table by the id that their values
are bound with. -/

namespace Polystore
set_option autoImplicit false

/-! ## Reading type ids -/

namespace TypeRef

namespace Wrapper

def word : Wrapper → String
  | list => "list"
  | set => "set"
  | array => "array"

theorem typeId_wrap (w : Wrapper) (t : TypeRef) :
    (w.wrap t).typeId.toList = w.word.toList ++ '<' :: (t.typeId.toList ++ ['>']) := by
  have hopen : ∀ word : String, (word ++ "<").toList = word.toList ++ ['<'] :=
    fun word => String.toList_append
  have happend : ∀ word inner : String, (word ++ "<" ++ inner ++ ">").toList =
      word.toList ++ '<' :: (inner.toList ++ ['>']) := by
    intro word inner
    rw [String.toList_append, String.toList_append, hopen, List.append_assoc, List.append_assoc]
    rfl
  cases w with
  | list => exact happend "list" t.typeId
  | set => exact happend "set" t.typeId
  | array => exact happend "array" t.typeId

end Wrapper

theorem beforeClose?_append (close : Char) (cs : List Char) :
    beforeClose? close (cs ++ [close]) = some cs := by
  induction cs with
  | nil => rw [List.nil_append, beforeClose?, if_pos rfl]
  | cons c cs ih =>
    have hne : cs ++ [close] ≠ [] := List.append_ne_nil_of_right_ne_nil cs (List.cons_ne_nil _ _)
    rw [List.cons_append, beforeClose?, ih]
    · rfl
    · exact fun h => hne h

/-- A word is read in any letter case. -/
theorem afterWord?_eq_some {ws cs r : List Char} :
    afterWord? ws cs = some r ↔ ∃ lead, cs = lead ++ r ∧ lead.map Char.toLower = ws := by
  induction ws generalizing cs with
  | nil =>
    rw [afterWord?, Option.some_inj]
    simp only [List.map_eq_nil_iff, exists_eq_right, List.nil_append]
  | cons w ws ih =>
    simp only [List.map_eq_cons_iff]
    cases cs with
    | nil =>
      constructor
      · intro h
        cases h
      · rintro ⟨_, h, c, lead, rfl, -, -⟩
        cases h
    | cons c cs =>
      rw [afterWord?]
      constructor
      · intro h
        split at h
        · rename_i hc
          obtain ⟨lead, rfl, hlead⟩ := ih.mp h
          exact ⟨c :: lead, rfl, c, lead, rfl, hc, hlead⟩
        · cases h
      · rintro ⟨_, h, d, lead, rfl, hd, hlead⟩
        obtain ⟨rfl, rfl⟩ := List.cons.inj h
        rw [if_pos hd]
        exact ih.mpr ⟨lead, rfl, hlead⟩

/-- Behind a word the argument is read that stands in angle brackets. -/
theorem argument?_append {word lead : List Char} (h : lead.map Char.toLower = word)
    (inner : List Char) :
    argument? word '<' '>' (lead ++ '<' :: (inner ++ ['>'])) = some inner := by
  have hword : afterWord? word (lead ++ '<' :: (inner ++ ['>'])) =
      some ('<' :: (inner ++ ['>'])) := afterWord?_eq_some.mpr ⟨lead, rfl, h⟩
  have htrim : Text.trimStartChars ('<' :: (inner ++ ['>'])) = '<' :: (inner ++ ['>']) := rfl
  unfold argument?
  rw [hword]
  dsimp only
  rw [htrim]
  exact beforeClose?_append '>' inner

theorem argument?_wrap (w : Wrapper) (inner : List Char) :
    argument? w.word.toList '<' '>' (w.word.toList ++ '<' :: (inner ++ ['>'])) = some inner :=
  argument?_append (by cases w <;> decide) inner

theorem mem_of_argument? {word : List Char} {op close : Char} {cs inner : List Char}
    (h : argument? word op close cs = some inner) : op ∈ cs := by
  unfold argument? at h
  split at h
  · cases h
  · rename_i r hr
    obtain ⟨lead, rfl, -⟩ := afterWord?_eq_some.mp hr
    apply List.mem_append_right lead
    split at h
    · cases h
    · rename_i c rest hrest
      split at h
      · rename_i hc
        have hmem : op ∈ Text.trimStartChars r := by
          rw [hrest, ← hc]
          exact List.mem_cons_self
        exact (List.dropWhile_sublist _).mem hmem
      · cases h

/-- Before its argument a word stands in any letter case. -/
theorem head?_of_argument? {word : List Char} {op close : Char} {cs inner : List Char}
    (hword : word ≠ []) (h : argument? word op close cs = some inner) :
    (cs.map Char.toLower).head? = word.head? := by
  unfold argument? at h
  split at h
  · cases h
  · rename_i r hr
    obtain ⟨lead, rfl, rfl⟩ := afterWord?_eq_some.mp hr
    obtain ⟨c, word, hcons⟩ := List.exists_cons_of_ne_nil hword
    rw [List.map_append, hcons]
    rfl

/-- A text has one word and one argument: the words differ in their first letters. -/
theorem Wrapper.unique {w w' : Wrapper} {cs inner inner' : List Char}
    (h : argument? w.word.toList '<' '>' cs = some inner)
    (h' : argument? w'.word.toList '<' '>' cs = some inner') : w = w' ∧ inner = inner' := by
  have hword : ∀ w : Wrapper, w.word.toList ≠ [] := by
    intro w
    cases w <;> decide
  have hheads : w.word.toList.head? = w'.word.toList.head? :=
    (head?_of_argument? (hword w) h).symm.trans (head?_of_argument? (hword w') h')
  have hsame : w = w' := by
    revert hheads
    cases w <;> cases w' <;> decide
  subst hsame
  exact ⟨rfl, Option.some.inj (h.symm.trans h')⟩

/-- A text with an argument in angle brackets has the shape of its word alone. -/
theorem shape_of_argument {w : Wrapper} {cs inner : List Char}
    (h : argument? w.word.toList '<' '>' cs = some inner) :
    ∃ hlength, shape cs = .wrapped w inner hlength := by
  refine ⟨argument?_length h, ?_⟩
  have hhead : ∀ {word : List Char} {op close : Char} {r : List Char}, word ≠ [] →
      argument? word op close cs = some r → word.head? = w.word.toList.head? := by
    intro word op close r hne hr
    have hword : w.word.toList ≠ [] := by cases w <;> decide
    exact (head?_of_argument? hne hr).symm.trans (head?_of_argument? hword h)
  unfold shape
  split
  · rename_i hr
    exact absurd (hhead (by decide) hr) (by cases w <;> decide)
  · rename_i hr
    exact absurd (hhead (by decide) hr) (by cases w <;> decide)
  · split
    · rename_i hr
      obtain ⟨rfl, rfl⟩ := Wrapper.unique (w := .list) hr h
      rfl
    · rename_i hlist
      split
      · rename_i hr
        obtain ⟨rfl, rfl⟩ := Wrapper.unique (w := .set) hr h
        rfl
      · rename_i hset
        split
        · rename_i hr
          obtain ⟨rfl, rfl⟩ := Wrapper.unique (w := .array) hr h
          rfl
        · rename_i harray
          cases w with
          | list => cases h.symm.trans hlist
          | set => cases h.symm.trans hset
          | array => cases h.symm.trans harray

/-- The text of a wrapped type has the shape of its word alone. -/
theorem shape_wrap (w : Wrapper) (inner : List Char) :
    ∃ hlength, shape (w.word.toList ++ '<' :: (inner ++ ['>'])) = .wrapped w inner hlength :=
  shape_of_argument (argument?_wrap w inner)

theorem parseChars_wrapped {cs : List Char} (htrim : Text.trimChars cs = cs) {w : Wrapper}
    {inner : List Char} {hlength} (hshape : shape cs = .wrapped w inner hlength) :
    parseChars cs = (parseChars inner).map w.wrap := by
  have htrimmed : ∀ s, s = cs → ∃ hlength, shape s = .wrapped w inner hlength := by
    rintro s rfl
    exact ⟨hlength, hshape⟩
  obtain ⟨hlength', htrimmed⟩ := htrimmed _ htrim
  have hne : cs ≠ [] := by
    rintro rfl
    cases hlength
  rw [parseChars, htrimmed]
  simp [htrim, hne]

theorem parseChars_plain {cs : List Char} (htrim : Text.trimChars cs = cs) (hne : cs ≠ [])
    (hshape : shape cs = .plain) (hreserved : cs.any isReserved = false) :
    parseChars cs = .ok (.scalar (scalarId cs)) := by
  have htrimmed : ∀ s, s = cs → shape s = .plain := by
    rintro s rfl
    exact hshape
  rw [parseChars, htrimmed _ htrim]
  simp [htrim, hne, hreserved]

end TypeRef

/-! ## Tables of own types -/

namespace TypeTable

/-- Beside the scalars of all dialects there are no types, or `json` for stores that hold trees. -/
def Own (t : TypeTable) : Prop :=
  t.overrides = [] ∨ t.overrides = [(UserType.nativeJson.id, .nativeJson)]

theorem own_ofDialect (dialect : String) : (ofDialect dialect).Own := by
  unfold Own ofDialect
  split
  · exact .inr rfl
  · exact .inl rfl

variable {t : TypeTable} {id : String}

/-- The names are those of the scalars. -/
theorem Own.named?_isSome (ht : t.Own) : (t.named? id).isSome ↔ ∃ s : Scalar, s.id = id := by
  have hscalar : (Scalar.ofId? id).isSome ↔ ∃ s : Scalar, s.id = id := by
    rw [Scalar.ofId?, List.find?_isSome]
    constructor
    · rintro ⟨s, -, hs⟩
      exact ⟨s, beq_iff_eq.mp hs⟩
    · rintro ⟨s, rfl⟩
      exact ⟨s, by cases s <;> decide, beq_self_eq_true _⟩
  unfold named?
  rw [Option.isSome_or, Option.isSome_map, Bool.or_eq_true, hscalar]
  refine or_iff_right_of_imp fun h => ?_
  obtain hnone | hjson := ht
  · rw [hnone] at h
    cases h
  · rw [hjson, List.lookup_cons, List.lookup_nil] at h
    cases hid : id == UserType.nativeJson.id with
    | true => exact ⟨.json, (beq_iff_eq.mp hid).symm⟩
    | false =>
      rw [hid] at h
      cases h

theorem Own.named?_id (ht : t.Own) {s : Scalar} (hs : s ≠ .json) :
    t.named? s.id = some (.scalar s) := by
  have hother : s.id ≠ UserType.nativeJson.id := by
    cases s with
    | json => exact absurd rfl hs
    | _ => decide
  unfold named?
  obtain hnone | hjson := ht
  · rw [hnone, Scalar.ofId?_id]
    rfl
  · rw [hjson, List.lookup_cons, beq_false_of_ne hother, Scalar.ofId?_id]
    rfl

theorem Own.named?_eq_none (ht : t.Own) (h : ∀ s : Scalar, s.id ≠ id) : t.named? id = none := by
  rw [← Option.not_isSome_iff_eq_none, ht.named?_isSome]
  rintro ⟨s, hs⟩
  exact h s hs

theorem Own.named?_bracketed (ht : t.Own) (h : '<' ∈ id.toList) : t.named? id = none := by
  refine ht.named?_eq_none fun s hs => ?_
  have hid : '<' ∉ s.id.toList := by cases s <;> decide
  exact hid (hs ▸ h)

theorem part_wrap (t : TypeTable) (w : TypeRef.Wrapper) (r : TypeRef) :
    t.part (w.wrap r) = (t.part r).map (.collection (w.wrap r).typeId w) := by
  cases w <;> rfl

theorem whole_wrap (t : TypeTable) (id : String) (w : TypeRef.Wrapper) (r : TypeRef) :
    t.whole id (w.wrap r) = (t.part r).map (.collection id w) := by
  cases w <;> rfl

end TypeTable

open Documents (types)

theorem types_own : types.Own := TypeTable.own_ofDialect _

/-- Only scalars have names. -/
theorem id_of_named? {id : String} {u : UserType} (h : types.named? id = some u) :
    ∃ s : Scalar, id = s.id := by
  obtain ⟨s, hs⟩ := types_own.named?_isSome.mp (Option.isSome_of_eq_some h)
  exact ⟨s, hs.symm⟩

/-! ## Stored types -/

/-- The types of fields that documents store, with the user types that convert them. -/
inductive Storable : TypeRef → UserType → Prop
  | scalar {s : Scalar} (h : s ≠ .json) : Storable (.scalar s.id) (.scalar s)
  | wrapped (w : TypeRef.Wrapper) {t : TypeRef} {u : UserType} (h : Storable t u) :
    Storable (w.wrap t) (.collection (w.wrap t).typeId w u)

namespace Storable

open TypeRef

variable {t : TypeRef} {u : UserType}

theorem notBlank (h : Storable t u) : ∀ c ∈ t.typeId.toList, Text.isBlank c = false := by
  induction h with
  | @scalar s hs => exact Text.notBlank_of_all (by cases s <;> decide)
  | @wrapped w t u h ih =>
    have hword : ∀ c ∈ w.word.toList, Text.isBlank c = false :=
      Text.notBlank_of_all (by cases w <;> decide)
    have hopen : Text.isBlank '<' = false := by decide
    have hclose : Text.isBlank '>' = false := by decide
    rw [Wrapper.typeId_wrap]
    simp only [List.forall_mem_append, List.forall_mem_cons, List.not_mem_nil, false_imp_iff,
      implies_true, and_true]
    exact ⟨hword, hopen, ih, hclose⟩

theorem trim_typeId (h : Storable t u) : Text.trim t.typeId = t.typeId :=
  Text.trim_of_all h.notBlank

theorem parse_typeId (h : Storable t u) : parse t.typeId = .ok t := by
  have htrim : Text.trimChars t.typeId.toList = t.typeId.toList :=
    Text.trimChars_of_all h.notBlank
  unfold parse
  induction h with
  | @scalar s hs =>
    cases s with
    | json => exact absurd rfl hs
    | string | int | long | bool | double | uuid | instant =>
      exact parseChars_plain htrim nofun rfl rfl
  | @wrapped w t u h ih =>
    have hshape := shape_wrap w t.typeId.toList
    rw [← Wrapper.typeId_wrap] at hshape
    obtain ⟨hlength, hshape⟩ := hshape
    have hinner : Text.trimChars t.typeId.toList = t.typeId.toList :=
      Text.trimChars_of_all h.notBlank
    rw [parseChars_wrapped htrim hshape, ih hinner]
    rfl

theorem part_eq {table : TypeTable} (ht : table.Own) (h : Storable t u) : table.part t = .ok u := by
  induction h with
  | scalar hs => rw [TypeTable.part, TypeTable.scalar, ht.named?_id hs]
  | @wrapped w t u h ih =>
    rw [TypeTable.part_wrap, ih]
    rfl

/-- The type of a stored field is found by its id. -/
theorem get_typeId (h : Storable t u) : types.get t.typeId = .ok u := by
  have hparse := h.parse_typeId
  unfold TypeTable.get
  rw [h.trim_typeId]
  cases h with
  | @scalar s hs =>
    cases s with
    | json => exact absurd rfl hs
    | string | int | long | bool | double | uuid | instant => rfl
  | @wrapped w t u h =>
    have hnamed : types.named? (w.wrap t).typeId = none := by
      apply types_own.named?_bracketed
      rw [Wrapper.typeId_wrap]
      exact List.mem_append_right _ List.mem_cons_self
    dsimp only
    rw [hnamed, hparse]
    dsimp only
    rw [TypeTable.whole_wrap, h.part_eq types_own]
    rfl

end Storable

/-- There is no type for references. -/
theorem get_ref (entity : String) :
    ∃ e, Documents.types.get (TypeRef.ref entity).typeId = .error e := by
  have htrim : Text.trimChars "ref".toList = "ref".toList := by decide
  have hparse : TypeRef.parse "ref" = .ok (.scalar "ref") :=
    TypeRef.parseChars_plain htrim nofun rfl rfl
  have hid : Text.trim "ref" = "ref" := congrArg String.ofList htrim
  refine ⟨.unknownType "ref" TypeTable.documentDialect, ?_⟩
  unfold TypeTable.get TypeRef.typeId
  rw [hid]
  dsimp only
  rw [hparse]
  rfl

end Polystore
