import Polystore.Proofs.Types.Conversion

/-! # Types of elements

The id of a collection names the type of its elements too, and an element is encoded by itself as it
is encoded inside of the collection. Scalars and collections of scalars are found by their ids in
any letter case. -/

namespace Polystore
set_option autoImplicit false

/-! ## Reading type ids -/

namespace TypeRef

theorem argument?_eq_none {word : List Char} {op close : Char} {cs : List Char} (h : op ∉ cs) :
    argument? word op close cs = none := by
  cases hr : argument? word op close cs with
  | none => rfl
  | some r => exact absurd (mem_of_argument? hr) h

theorem shape_plain {cs : List Char} (hround : '(' ∉ cs) (hangle : '<' ∉ cs) :
    shape cs = .plain := by
  have hnone : ∀ word, argument? word '(' ')' cs = none := fun _ => argument?_eq_none hround
  unfold shape
  rw [hnone, hnone]
  dsimp only
  split
  · rename_i hr
    exact absurd (mem_of_argument? hr) hangle
  · split
    · rename_i hr
      exact absurd (mem_of_argument? hr) hangle
    · split
      · rename_i hr
        exact absurd (mem_of_argument? hr) hangle
      · split
        · rename_i hr
          exact absurd (mem_of_argument? hr) hangle
        · rfl

/-- What a trimmed text is read as, by its shape; errors show the text that was given. -/
def ofShape (given trimmed : List Char) {n : Nat} : Shape n → Except ModelError TypeRef
  | .ref inner => entityName given inner ref
  | .value inner => entityName given inner value
  | .wrapped w inner _ => (parseChars inner).map w.wrap
  | .map none => .error (invalid given "map needs <K,V>")
  | .map (some ⟨(k, v), _⟩) =>
    match parseChars k with
    | .error e => .error e
    | .ok k => (parseChars v).map (map k)
  | .plain =>
    if trimmed.any isReserved then .error (invalid given "malformed type")
    else .ok (scalar (scalarId trimmed))

theorem parseChars_eq (cs : List Char) :
    parseChars cs = if (Text.trimChars cs).isEmpty then .error (invalid cs "empty type")
      else ofShape cs (Text.trimChars cs) (shape (Text.trimChars cs)) := by
  rw [parseChars]
  split
  · rfl
  · split <;> rename_i hshape <;> rw [hshape] <;> rfl

theorem ofShape_eq_ok {given given' trimmed : List Char} {n : Nat} {sh : Shape n} {t : TypeRef}
    (h : ofShape given trimmed sh = .ok t) : ofShape given' trimmed sh = .ok t := by
  have hname : ∀ {inner mk}, entityName given inner mk = .ok t →
      entityName given' inner mk = .ok t := by
    intro inner mk h
    unfold entityName at h ⊢
    split at h
    · exact h
    · cases h
  unfold ofShape at h ⊢
  split at h
  · exact hname h
  · exact hname h
  · exact h
  · cases h
  · exact h
  · split at h
    · cases h
    · rename_i hplain
      exact (if_neg hplain).trans h

/-- What is read does not depend on blanks around it. -/
theorem parseChars_trimChars {cs : List Char} {t : TypeRef} :
    parseChars (Text.trimChars cs) = .ok t ↔ parseChars cs = .ok t := by
  rw [parseChars_eq, Text.trimChars_trimChars, parseChars_eq cs]
  cases (Text.trimChars cs).isEmpty with
  | true => exact iff_of_false nofun nofun
  | false => exact ⟨ofShape_eq_ok, ofShape_eq_ok⟩

/-! ## Letter case -/

section
variable {cs : List Char} {s : Scalar}

theorem letters_of_lower (h : cs.map Char.toLower = s.id.toList) {c : Char} (hc : c ∈ cs) :
    c.toLower.isLower = true ∧ Text.isBlank c = false ∧ c.toNat < 0x80 := by
  have hid : s.id.toList.all (fun c => c.isLower && !Text.isBlank c && c.toNat < 0x80) = true := by
    cases s <;> rfl
  have hmem : c.toLower ∈ s.id.toList := h ▸ List.mem_map_of_mem hc
  have hletter := List.all_eq_true.mp hid _ hmem
  simp only [Bool.and_eq_true, Bool.not_eq_true', decide_eq_true_eq, and_assoc] at hletter
  obtain ⟨hlower, hblank, hascii⟩ := hletter
  exact ⟨hlower, Text.isBlank_toLower c ▸ hblank, Text.ascii_of_toLower hascii⟩

theorem trimChars_scalar (h : cs.map Char.toLower = s.id.toList) : Text.trimChars cs = cs :=
  Text.trimChars_of_all fun _ hc => (letters_of_lower h hc).2.1

/-- A scalar is read from its id in any letter case. -/
theorem parseChars_scalar (h : cs.map Char.toLower = s.id.toList) :
    parseChars cs = .ok (.scalar s.id) := by
  have habsent : ∀ {c : Char}, c.toLower = c → c.isLower = false → c ∉ cs := by
    intro c hc hother hmem
    have hletter := (letters_of_lower h hmem).1
    rw [hc, hother] at hletter
    cases hletter
  have hne : cs ≠ [] := by
    rintro rfl
    revert h
    cases s <;> nofun
  have hreserved : cs.any isReserved = false := by
    rw [List.any_eq_false]
    intro c hc hreserved
    simp only [isReserved, Bool.or_eq_true, beq_iff_eq] at hreserved
    obtain (((rfl | rfl) | rfl) | rfl) | rfl := hreserved <;> exact habsent rfl rfl hc
  have hdot : cs.contains '.' = false := by
    rw [← Bool.not_eq_true, List.contains_iff_mem]
    exact habsent rfl rfl
  have hlower : scalarId cs = s.id := by
    have hascii : ∀ c ∈ cs, c.toNat < 0x80 := fun c hc => (letters_of_lower h hc).2.2
    rw [scalarId, hdot, if_neg Bool.false_ne_true, Text.lower, String.toList_ofList,
      Text.lowerFrom_ascii hascii, h, String.ofList_toList]
  rw [parseChars_plain (trimChars_scalar h) hne (shape_plain (habsent rfl rfl) (habsent rfl rfl))
    hreserved, hlower]

end

/-- An argument is read behind its word in any letter case. -/
theorem argument?_of_lower {w : Wrapper} {cs inner : List Char}
    (h : cs.map Char.toLower = w.word.toList ++ '<' :: (inner ++ ['>'])) :
    ∃ inner', argument? w.word.toList '<' '>' cs = some inner' ∧
      inner'.map Char.toLower = inner := by
  obtain ⟨lead, rest, rfl, hlead, hrest⟩ := List.map_eq_append_iff.mp h
  obtain ⟨c, rest, rfl, hc, hrest⟩ := List.map_eq_cons_iff.mp hrest
  obtain ⟨inner', close, rfl, hinner, hclose⟩ := List.map_eq_append_iff.mp hrest
  obtain ⟨d, none, rfl, hd, hnone⟩ := List.map_eq_cons_iff.mp hclose
  obtain rfl := List.map_eq_nil_iff.mp hnone
  obtain rfl := Text.eq_of_toLower hc rfl
  obtain rfl := Text.eq_of_toLower hd rfl
  exact ⟨inner', argument?_append hlead inner', hinner⟩

end TypeRef

/-! ## Types by id -/

/-- A type is the one that its id is read as, which keeps the text it was written in. -/
theorem TypeTable.get_parsed {t : TypeTable} (ht : t.Own) {id : String} {r : TypeRef}
    (h : TypeRef.parse id = .ok r) : t.get id = t.whole (Text.trim id) r := by
  have hparse : TypeRef.parse (Text.trim id) = .ok r := by
    unfold TypeRef.parse at h ⊢
    rw [Text.toList_trim]
    exact TypeRef.parseChars_trimChars.mpr h
  unfold get
  dsimp only
  cases hnamed : t.named? (Text.trim id) with
  | none => rw [hparse]
  | some u =>
    obtain ⟨s, hs⟩ := ht.named?_isSome.mp (Option.isSome_of_eq_some hnamed)
    have hlower : s.id.toList.map Char.toLower = s.id.toList := by
      cases s <;> decide
    rw [← hs, TypeRef.parse, TypeRef.parseChars_scalar hlower] at hparse
    cases hparse
    rw [whole, scalar, hs, hnamed]

open Documents (types)
open TypeRef

section
variable {t : String} {s : Scalar}

theorem lower_trim {id : String} (h : Text.lowerAscii (Text.trim t) = id) :
    (Text.trimChars t.toList).map Char.toLower = id.toList := by
  rw [← h, Text.lowerAscii, String.toList_ofList, Text.toList_trim]

theorem get_scalar (hs : s ≠ .json) (h : Text.lowerAscii (Text.trim t) = s.id) :
    types.get t = .ok (.scalar s) := by
  have hparse : TypeRef.parse t = .ok (.scalar s.id) :=
    parseChars_trimChars.mp (parseChars_scalar (lower_trim h))
  rw [TypeTable.get_parsed types_own hparse, TypeTable.whole, TypeTable.scalar,
    types_own.named?_id hs]

/-- The type of a collection is found by its id if the type of its argument is. -/
theorem get_of_argument {w : Wrapper} {inner : List Char} {r : TypeRef} {item : UserType}
    (h : argument? w.word.toList '<' '>' (Text.trimChars t.toList) = some inner)
    (hparse : parseChars inner = .ok r) (hpart : types.part r = .ok item) :
    types.get t = .ok (.collection (Text.trim t) w item) := by
  obtain ⟨hlength, hshape⟩ := shape_of_argument h
  have hread : TypeRef.parse t = .ok (w.wrap r) := by
    rw [TypeRef.parse, ← parseChars_trimChars,
      parseChars_wrapped (Text.trimChars_trimChars _) hshape, hparse]
    rfl
  rw [TypeTable.get_parsed types_own hread, TypeTable.whole_wrap, hpart]
  rfl

theorem get_wrapped {w : Wrapper} (hs : s ≠ .json)
    (h : Text.lowerAscii (Text.trim t) = (w.wrap (.scalar s.id)).typeId) :
    types.get t = .ok (.collection (Text.trim t) w (.scalar s)) := by
  have hchars := lower_trim h
  rw [Wrapper.typeId_wrap] at hchars
  obtain ⟨inner, hargument, hinner⟩ := argument?_of_lower hchars
  refine get_of_argument hargument (parseChars_scalar hinner) ?_
  exact (Storable.scalar hs).part_eq types_own

/-- What is bound as a scalar or as a list or set of it is encoded as one. -/
theorem encoded_among (hs : s ≠ .json) {b : Bind} (h : typeAmong
      [s.id, (TypeRef.list (.scalar s.id)).typeId, (TypeRef.set (.scalar s.id)).typeId] b = true)
    {v x : Value} (hx : types.encode b.typeId v = .ok x) :
    Encoded (.scalar s) x ∨ ∃ id w, Encoded (.collection id w (.scalar s)) x := by
  have hscalar : Storable (.scalar s.id) (.scalar s) := .scalar hs
  have hwrapped : ∀ w : Wrapper,
      Text.lowerAscii (Text.trim b.typeId) = (w.wrap (.scalar s.id)).typeId →
      Encoded (.collection (w.wrap (.scalar s.id)).typeId w (.scalar s)) x := by
    intro w hid
    unfold TypeTable.encode at hx
    rw [get_wrapped hs hid] at hx
    exact (hscalar.wrapped w).encoded (v := v) hx
  simp only [typeAmong, List.contains_cons, List.contains_nil, Bool.or_false, Bool.or_eq_true,
    beq_iff_eq] at h
  obtain h | h | h := h
  · unfold TypeTable.encode at hx
    rw [get_scalar hs h] at hx
    exact .inl (hscalar.encoded (v := v) hx)
  · exact .inr ⟨_, _, hwrapped .list h⟩
  · exact .inr ⟨_, _, hwrapped .set h⟩

end

/-! ## Elements of collections -/

theorem after?_eq_some {lead s r : String} (h : Text.after? lead s = some r) :
    s.toList = lead.toList ++ r.toList := by
  obtain ⟨cs, hcs, rfl⟩ := Option.map_eq_some_iff.mp h
  rw [String.toList_ofList, List.isPrefixOf?_eq_some_iff_append_eq.mp hcs]

theorem before?_eq_some {tail s r : String} (h : Text.before? tail s = some r) :
    s.toList = r.toList ++ tail.toList := by
  obtain ⟨cs, hcs, rfl⟩ := Option.map_eq_some_iff.mp h
  rw [String.toList_ofList, List.isSuffixOf?_eq_some_iff_append_eq.mp hcs]

/-- What one type encodes the other one encodes too, to the same value. -/
def UserType.Within (u u' : UserType) : Prop := ∀ v x, u.encode v = .ok x → u'.encode v = .ok x

section
variable {t e : String}

/-- The id of the elements is the argument of the id, without blanks around it. -/
theorem elementTypeId?_eq_some (h : elementTypeId? t = some e) :
    ∃ (w : Wrapper) (inner : List Char),
      Text.trimChars t.toList = w.word.toList ++ '<' :: (inner ++ ['>']) ∧
      e.toList = Text.trimChars inner := by
  unfold elementTypeId? at h
  dsimp only at h
  split at h
  · rename_i r hr
    obtain ⟨inner, hinner, rfl⟩ := Option.map_eq_some_iff.mp h
    obtain ⟨lead, hlead, hafter⟩ := List.exists_of_findSome?_eq_some hr
    have hchars := after?_eq_some hafter
    rw [before?_eq_some hinner, Text.toList_trim] at hchars
    obtain ⟨w, hw⟩ : ∃ w : Wrapper, lead.toList = w.word.toList ++ ['<'] := by
      simp only [List.mem_cons, List.not_mem_nil, or_false] at hlead
      obtain rfl | rfl | rfl := hlead
      · exact ⟨.list, by decide⟩
      · exact ⟨.set, by decide⟩
      · exact ⟨.array, by decide⟩
    refine ⟨w, inner.toList, ?_, Text.toList_trim inner⟩
    rw [hchars, hw, List.append_assoc]
    rfl
  · cases h

theorem convertMap_encodes (id id' : String) (key value : Value → Except CodecError Value) :
    ∀ v x, UserType.convertMap id key value v = .ok x →
      UserType.convertMap id' key value v = .ok x := by
  intro v x h
  unfold UserType.convertMap at h ⊢
  split at h
  · rename_i hnull
    rwa [if_pos hnull]
  · rename_i hvalue
    rw [if_neg hvalue]
    split at h
    · cases h
    · exact h

/-- By itself and as the part of another one a type is the same, but for what it is called. -/
theorem part_of_whole {id : String} {r : TypeRef} {u : UserType} (h : types.whole id r = .ok u) :
    ∃ item, types.part r = .ok item ∧ u.Within item := by
  have hwrapped : ∀ (w : Wrapper) (id' : String) {part : Except CodecError UserType},
      part.map (.collection id w) = .ok u →
      ∃ item, part.map (.collection id' w) = .ok item ∧ u.Within item := by
    intro w id' part h
    obtain ⟨item, hitem, rfl⟩ := map_eq_ok.mp h
    exact ⟨_, map_eq_ok.mpr ⟨item, hitem, rfl⟩, fun _ _ hx => hx⟩
  cases r with
  | scalar s => exact ⟨u, h, fun _ _ hx => hx⟩
  | ref entity => cases h
  | value entity => cases h
  | list elem => exact hwrapped .list _ h
  | set elem => exact hwrapped .set _ h
  | array elem => exact hwrapped .array _ h
  | map k v =>
    obtain ⟨key, hkey, h⟩ := bind_eq_ok.mp h
    obtain ⟨value, hvalue, h⟩ := bind_eq_ok.mp h
    cases h
    exact ⟨_, bind_eq_ok.mpr ⟨key, hkey, bind_eq_ok.mpr ⟨value, hvalue, rfl⟩⟩,
      convertMap_encodes _ _ _ _⟩

/-- A type that is found by its id is the part of other types that are read from it. -/
theorem part_of_get {u : UserType} (hu : types.get t = .ok u) :
    ∃ r item, parseChars t.toList = .ok r ∧ types.part r = .ok item ∧ u.Within item := by
  unfold TypeTable.get at hu
  dsimp only at hu
  split at hu
  · rename_i u' hnamed
    cases hu
    obtain ⟨s, hs⟩ := id_of_named? hnamed
    have hlower : s.id.toList.map Char.toLower = s.id.toList := by
      cases s <;> decide
    have hparse : parseChars (Text.trimChars t.toList) = .ok (.scalar s.id) := by
      rw [← Text.toList_trim, hs]
      exact parseChars_scalar hlower
    refine ⟨.scalar s.id, u, parseChars_trimChars.mp hparse, ?_, fun _ _ hx => hx⟩
    rw [TypeTable.part, TypeTable.scalar, ← hs, hnamed]
  · split at hu
    · rename_i r hr
      obtain ⟨item, hpart, hwithin⟩ := part_of_whole hu
      rw [TypeRef.parse, Text.toList_trim] at hr
      exact ⟨r, item, parseChars_trimChars.mp hr, hpart, hwithin⟩
    · cases hu

/-- If there is a type for the elements then there is one for the collection, and an element is
encoded inside of it as it is by itself. -/
theorem get_collection (h : elementTypeId? t = some e) {u : UserType} (hu : types.get e = .ok u) :
    ∃ w item, types.get t = .ok (.collection (Text.trim t) w item) ∧ u.Within item := by
  obtain ⟨w, inner, hchars, he⟩ := elementTypeId?_eq_some h
  obtain ⟨r, item, hparse, hpart, hwithin⟩ := part_of_get hu
  rw [he, parseChars_trimChars] at hparse
  exact ⟨w, item, get_of_argument (hchars ▸ argument?_wrap w inner) hparse hpart, hwithin⟩

/-- The elements of a collection of scalars have the id of the scalar, in any letter case. -/
theorem lower_element {w : Wrapper} {s : Scalar} (h : elementTypeId? t = some e)
    (hlower : Text.lowerAscii (Text.trim t) = (w.wrap (.scalar s.id)).typeId) :
    Text.lowerAscii (Text.trim e) = s.id := by
  obtain ⟨w', inner, hchars, he⟩ := elementTypeId?_eq_some h
  have hid := lower_trim hlower
  rw [Wrapper.typeId_wrap, hchars] at hid
  have hchars' : (w'.word.toList ++ '<' :: (inner ++ ['>'])).map Char.toLower =
      w'.word.toList.map Char.toLower ++ '<' :: (inner.map Char.toLower ++ ['>']) := by
    rw [List.map_append, List.map_cons, List.map_append]
    rfl
  have hword : (w'.word.toList.map Char.toLower).map Char.toLower = w'.word.toList := by
    cases w' <;> decide
  have hargument := argument?_append hword (inner.map Char.toLower)
  rw [← hchars', hid] at hargument
  obtain ⟨-, hinner⟩ := Wrapper.unique hargument (argument?_wrap w s.id.toList)
  rw [Text.lowerAscii, Text.toList_trim, he, Text.trimChars_trimChars, trimChars_scalar hinner,
    hinner, String.ofList_toList]

end
end Polystore
