import Polystore.Proofs.Text.LowerCase
import Polystore.Proofs.Types.ElementIds

/-! # Texts of types

A type that was read from a text is read back from the text it is written as, and from its id but
for the names of entities. Entity names may hold commas and brackets: what is written has the same
brackets and commas in the same order as what was read, so that a map is split at the same place. -/

namespace Polystore.TypeRef
set_option autoImplicit false

/-! ## Arguments -/

theorem beforeClose?_eq_some {close : Char} {cs r : List Char} :
    beforeClose? close cs = some r ↔ cs = r ++ [close] := by
  constructor
  · intro h
    induction cs generalizing r with
    | nil => cases h
    | cons c cs ih =>
      cases cs with
      | nil =>
        rw [beforeClose?] at h
        split at h
        · rename_i hc
          cases h
          rw [hc]
          rfl
        · cases h
      | cons d ds =>
        rw [beforeClose?, Option.map_eq_some_iff] at h
        · obtain ⟨r', h', rfl⟩ := h
          rw [ih h']
          rfl
        · exact List.cons_ne_nil _ _
  · rintro rfl
    exact beforeClose?_append close r

section
variable {word cs inner : List Char} {op close : Char}

/-- The argument of a word stands between brackets, behind the word in any letter case and blanks. -/
theorem argument?_eq_some (hop : Text.isBlank op = false) :
    argument? word op close cs = some inner ↔ ∃ lead blanks,
      cs = lead ++ (blanks ++ op :: (inner ++ [close])) ∧ lead.map Char.toLower = word ∧
        ∀ c ∈ blanks, Text.isBlank c = true := by
  constructor
  · intro h
    unfold argument? at h
    split at h
    · cases h
    · rename_i r hr
      obtain ⟨lead, rfl, hlead⟩ := afterWord?_eq_some.mp hr
      split at h
      · cases h
      · rename_i c rest hrest
        split at h
        · rename_i hc
          rw [hc, beforeClose?_eq_some.mp h] at hrest
          refine ⟨lead, r.takeWhile Text.isBlank, ?_, hlead, fun c hc => List.mem_takeWhile_imp hc⟩
          rw [← hrest]
          exact congrArg (lead ++ ·) List.takeWhile_append_dropWhile.symm
        · cases h
  · rintro ⟨lead, blanks, rfl, hlead, hblanks⟩
    have hword := afterWord?_eq_some.mpr
      ⟨lead, (rfl : lead ++ (blanks ++ op :: (inner ++ [close])) = _), hlead⟩
    have htrim : Text.trimStartChars (blanks ++ op :: (inner ++ [close])) =
        op :: (inner ++ [close]) := by
      simp [Text.trimStartChars, List.dropWhile_append_of_pos hblanks, hop]
    unfold argument?
    rw [hword]
    dsimp only
    rw [htrim]
    dsimp only
    rw [if_pos rfl, beforeClose?_append]

end

/-! ## One level -/

/-- What a trimmed text is read as; the parts are read by themselves. -/
inductive ReadAs (s : List Char) : TypeRef → Prop
  | scalar (hne : s ≠ []) (hplain : s.any isReserved = false) : ReadAs s (.scalar (scalarId s))
  | ref {inner : List Char} {e : String} (h : argument? "ref".toList '(' ')' s = some inner)
      (he : Text.nonBlank? (String.ofList inner) = some e) : ReadAs s (.ref e)
  | value {inner : List Char} {e : String} (h : argument? "value".toList '(' ')' s = some inner)
      (he : Text.nonBlank? (String.ofList inner) = some e) : ReadAs s (.value e)
  | wrapped {w : Wrapper} {inner : List Char} {t : TypeRef}
      (h : argument? w.word.toList '<' '>' s = some inner) (ht : parseChars inner = .ok t) :
      ReadAs s (w.wrap t)
  | map {inner a b : List Char} {k v : TypeRef} (h : argument? "map".toList '<' '>' s = some inner)
      (hsplit : splitComma? 0 inner = some (a, b)) (hk : parseChars a = .ok k)
      (hv : parseChars b = .ok v) : ReadAs s (.map k v)

section
variable {cs inner a b : List Char} {t : TypeRef}

theorem entityName_eq_ok {given : List Char} {mk : String → TypeRef} :
    entityName given inner mk = .ok t ↔
      ∃ e, Text.nonBlank? (String.ofList inner) = some e ∧ mk e = t := by
  unfold entityName
  split
  · rename_i e he
    simp [he]
  · rename_i hnone
    simp [hnone]

/-- The word of a shape has its argument, and a plain text has no word with one. -/
def Fits (cs : List Char) {n : Nat} : Shape n → Prop
  | .ref inner => argument? "ref".toList '(' ')' cs = some inner
  | .value inner => argument? "value".toList '(' ')' cs = some inner
  | .wrapped w inner _ => argument? w.word.toList '<' '>' cs = some inner
  | .map parts => ∃ inner, argument? "map".toList '<' '>' cs = some inner ∧
      splitComma? 0 inner = parts.map (·.1)
  | .plain => argument? "value".toList '(' ')' cs = none ∧ argument? "map".toList '<' '>' cs = none

theorem fits_shape (cs : List Char) : Fits cs (shape cs) := by
  unfold shape
  split
  · rename_i h
    exact h
  · rename_i h
    exact h
  · rename_i hvalue
    split
    · rename_i h
      exact h
    · split
      · rename_i h
        exact h
      · split
        · rename_i h
          exact h
        · split
          · rename_i inner h
            split
            · rename_i hsplit
              exact ⟨inner, h, hsplit⟩
            · rename_i hsplit
              exact ⟨inner, h, hsplit⟩
          · rename_i hmap
            exact ⟨hvalue, hmap⟩

/-- Words that have an argument in the same text begin with the same letter. -/
theorem head?_eq_of_arguments {word word' inner' : List Char} {op op' close close' : Char}
    (hword : word ≠ []) (hword' : word' ≠ []) (h : argument? word op close cs = some inner)
    (h' : argument? word' op' close' cs = some inner') : word.head? = word'.head? :=
  (head?_of_argument? hword h).symm.trans (head?_of_argument? hword' h')

theorem word_ne_nil (w : Wrapper) : w.word.toList ≠ [] := by cases w <;> decide

theorem shape_ref (h : argument? "ref".toList '(' ')' cs = some inner) :
    shape cs = .ref inner := by
  unfold shape
  rw [h]

theorem shape_value (h : argument? "value".toList '(' ')' cs = some inner) :
    shape cs = .value inner := by
  have hfits := fits_shape cs
  revert hfits
  cases shape cs with
  | ref => exact fun hr => absurd (head?_eq_of_arguments (by decide) (by decide) h hr) (by decide)
  | value =>
    intro hr
    rw [Option.some.inj (h.symm.trans hr)]
  | wrapped w =>
    intro hr
    exact absurd (head?_eq_of_arguments (by decide) (word_ne_nil w) h hr) (by cases w <;> decide)
  | map =>
    rintro ⟨_, hr, -⟩
    exact absurd (head?_eq_of_arguments (by decide) (by decide) h hr) (by decide)
  | plain => exact fun hr => nomatch h.symm.trans hr.1

theorem shape_map (h : argument? "map".toList '<' '>' cs = some inner) :
    ∃ parts, shape cs = .map parts ∧ splitComma? 0 inner = parts.map (·.1) := by
  have hfits := fits_shape cs
  revert hfits
  cases shape cs with
  | ref => exact fun hr => absurd (head?_eq_of_arguments (by decide) (by decide) h hr) (by decide)
  | value => exact fun hr => absurd (head?_eq_of_arguments (by decide) (by decide) h hr) (by decide)
  | wrapped w =>
    intro hr
    exact absurd (head?_eq_of_arguments (by decide) (word_ne_nil w) h hr) (by cases w <;> decide)
  | map parts =>
    rintro ⟨inner', hr, hsplit⟩
    obtain rfl := Option.some.inj (h.symm.trans hr)
    exact ⟨parts, rfl, hsplit⟩
  | plain => exact fun hr => nomatch h.symm.trans hr.2

theorem readAs_of_parseChars (h : parseChars cs = .ok t) : ReadAs (Text.trimChars cs) t := by
  rw [parseChars_eq] at h
  split at h
  · cases h
  rename_i hne
  have hshape := fits_shape (Text.trimChars cs)
  unfold ofShape at h
  split at h <;> rename_i hs <;> rw [hs] at hshape
  · obtain ⟨e, he, rfl⟩ := entityName_eq_ok.mp h
    exact .ref hshape he
  · obtain ⟨e, he, rfl⟩ := entityName_eq_ok.mp h
    exact .value hshape he
  · obtain ⟨elem, helem, rfl⟩ := map_eq_ok.mp h
    exact .wrapped hshape helem
  · cases h
  · obtain ⟨inner, hinner, hsplit⟩ := hshape
    split at h
    · cases h
    · rename_i hk
      obtain ⟨v, hv, rfl⟩ := map_eq_ok.mp h
      exact .map hinner hsplit hk hv
  · split at h
    · cases h
    · rename_i hplain
      cases h
      exact .scalar (by simpa using hne) (Bool.eq_false_iff.mpr hplain)

theorem parseChars_of_readAs (h : ReadAs (Text.trimChars cs) t) : parseChars cs = .ok t := by
  have hne : (Text.trimChars cs).isEmpty = false := by
    have hargument : ∀ {word inner : List Char} {op close : Char},
        argument? word op close (Text.trimChars cs) = some inner →
          (Text.trimChars cs).isEmpty = false := fun h => by
      rw [List.isEmpty_eq_false_iff]
      exact List.ne_nil_of_mem (mem_of_argument? h)
    cases h with
    | scalar hne => rwa [List.isEmpty_eq_false_iff]
    | ref h => exact hargument h
    | value h => exact hargument h
    | wrapped h => exact hargument h
    | map h => exact hargument h
  rw [parseChars_eq, hne, if_neg Bool.false_ne_true]
  clear hne
  cases h with
  | scalar _ hplain =>
    have hmarks : ∀ {c : Char}, isReserved c = true → c ∉ Text.trimChars cs := fun hc hmem =>
      List.any_eq_false.mp hplain _ hmem hc
    rw [shape_plain (hmarks rfl) (hmarks rfl), ofShape, hplain]
    rfl
  | ref h he =>
    rw [shape_ref h, ofShape, entityName, he]
  | value h he =>
    rw [shape_value h, ofShape, entityName, he]
  | wrapped h ht =>
    obtain ⟨hlength, hshape⟩ := shape_of_argument h
    rw [hshape, ofShape, ht]
    rfl
  | map h hsplit hk hv =>
    obtain ⟨parts, hshape, hparts⟩ := shape_map h
    rw [hsplit] at hparts
    obtain ⟨⟨⟨a, b⟩, hlength⟩, rfl, heq⟩ := Option.map_eq_some_iff.mp hparts.symm
    cases heq
    rw [hshape, ofShape, hk, hv]
    rfl

/-- A text is read by what it is without blanks around it. -/
theorem parseChars_eq_ok : parseChars cs = .ok t ↔ ReadAs (Text.trimChars cs) t :=
  ⟨readAs_of_parseChars, parseChars_of_readAs⟩

end

/-! ## Brackets and commas -/

def isMark (c : Char) : Bool := c == '<' || c == '>' || c == ','

/-- The brackets and commas of a text, which decide where a map is split. -/
def marks (cs : List Char) : List Char := cs.filter isMark

/-- The depth behind a text, or none if a map would be split in it. -/
def depthAfter? (depth : Int) : List Char → Option Int
  | [] => some depth
  | c :: cs =>
    if c = ',' ∧ depth = 0 then none
    else depthAfter? (if c = '<' then depth + 1 else if c = '>' then depth - 1 else depth) cs

section
variable {cs a b : List Char} {depth : Int}

theorem splitComma?_eq_some :
    splitComma? depth cs = some (a, b) ↔ cs = a ++ ',' :: b ∧ depthAfter? depth a = some 0 := by
  induction cs generalizing depth a with
  | nil => simp [splitComma?]
  | cons c cs ih =>
    rw [splitComma?]
    by_cases hcomma : c = ',' ∧ depth = 0
    · obtain ⟨rfl, rfl⟩ := hcomma
      cases a with
      | nil => simp [depthAfter?]
      | cons d a =>
        simp only [and_self, if_true, Option.some.injEq, Prod.mk.injEq, List.cons_append,
          List.cons.injEq]
        refine iff_of_false ?_ ?_
        · rintro ⟨h, -⟩
          cases h
        · rintro ⟨⟨rfl, -⟩, hdepth⟩
          simp [depthAfter?] at hdepth
    · simp only [if_neg hcomma, Option.map_eq_some_iff, Prod.exists, Prod.mk.injEq]
      cases a with
      | nil =>
        refine iff_of_false ?_ ?_
        · rintro ⟨_, _, _, h, -⟩
          cases h
        · rintro ⟨heq, hdepth⟩
          exact hcomma ⟨(List.cons.inj heq).1, Option.some.inj hdepth⟩
      | cons d a =>
        constructor
        · rintro ⟨a', b', hsplit, heq, rfl⟩
          obtain ⟨rfl, rfl⟩ := List.cons.inj heq
          obtain ⟨rfl, hdepth⟩ := ih.mp hsplit
          exact ⟨rfl, by rwa [depthAfter?, if_neg hcomma]⟩
        · rintro ⟨heq, hdepth⟩
          obtain ⟨rfl, rfl⟩ := List.cons.inj heq
          rw [depthAfter?, if_neg hcomma] at hdepth
          exact ⟨a, b, ih.mpr ⟨rfl, hdepth⟩, rfl, rfl⟩

theorem depthAfter?_append :
    depthAfter? depth (a ++ b) = (depthAfter? depth a).bind (depthAfter? · b) := by
  induction a generalizing depth with
  | nil => rfl
  | cons c a ih =>
    rw [List.cons_append, depthAfter?, depthAfter?]
    split
    · rfl
    · exact ih

theorem depthAfter?_marks : depthAfter? depth (marks cs) = depthAfter? depth cs := by
  induction cs generalizing depth with
  | nil => rfl
  | cons c cs ih =>
    rw [marks, List.filter_cons]
    cases hc : isMark c with
    | true =>
      rw [if_pos rfl, depthAfter?, depthAfter?]
      split
      · rfl
      · exact ih
    | false =>
      obtain ⟨⟨hopen, hclose⟩, hcomma⟩ : (c ≠ '<' ∧ c ≠ '>') ∧ c ≠ ',' := by simpa [isMark] using hc
      rw [if_neg Bool.false_ne_true, depthAfter?, if_neg (fun h => hcomma h.1), if_neg hopen,
        if_neg hclose]
      exact ih

theorem marks_append : marks (a ++ b) = marks a ++ marks b := List.filter_append ..

theorem marks_eq_nil (h : cs.any isMark = false) : marks cs = [] :=
  List.filter_eq_nil_iff.mpr (List.any_eq_false.mp h)

theorem marks_of_blanks (h : ∀ c ∈ cs, Text.isBlank c = true) : marks cs = [] := by
  refine marks_eq_nil (List.any_eq_false.mpr ?_)
  intro c hc hmark
  have hblank := h c hc
  simp only [isMark, Bool.or_eq_true, beq_iff_eq] at hmark
  obtain (rfl | rfl) | rfl := hmark <;> revert hblank <;> decide

theorem marks_dropWhile : marks (cs.dropWhile Text.isBlank) = marks cs := by
  have hblank : marks (cs.takeWhile Text.isBlank) = [] :=
    marks_of_blanks fun _ hc => List.mem_takeWhile_imp hc
  calc marks (cs.dropWhile Text.isBlank)
      = marks (cs.takeWhile Text.isBlank ++ cs.dropWhile Text.isBlank) := by
        rw [marks_append, hblank, List.nil_append]
    _ = marks cs := by rw [List.takeWhile_append_dropWhile]

theorem marks_trimChars (cs : List Char) : marks (Text.trimChars cs) = marks cs := by
  have hreverse : ∀ l : List Char, marks l.reverse = (marks l).reverse := fun l =>
    List.filter_reverse
  rw [Text.trimChars, Text.trimEndChars, hreverse, marks_dropWhile, hreverse, List.reverse_reverse,
    Text.trimStartChars, marks_dropWhile]

/-- Around the argument of a word there are no more marks than its brackets. -/
theorem marks_of_argument? {word inner : List Char} {op close : Char}
    (hop : Text.isBlank op = false) (hword : word.any isMark = false)
    (h : argument? word op close cs = some inner) :
    marks cs = marks (op :: (inner ++ [close])) := by
  obtain ⟨lead, blanks, rfl, rfl, hblanks⟩ := (argument?_eq_some hop).mp h
  have hlead : marks lead = [] := by
    refine marks_eq_nil (List.any_eq_false.mpr ?_)
    intro c hc hmark
    have hlower := List.any_eq_false.mp hword c.toLower (List.mem_map_of_mem hc)
    simp only [isMark, Bool.or_eq_true, beq_iff_eq] at hmark
    obtain (rfl | rfl) | rfl := hmark <;> revert hlower <;> decide
  rw [marks_append, hlead, marks_append, marks_of_blanks hblanks]
  rfl

theorem marks_of_unreserved (h : cs.any isReserved = false) : marks cs = [] := by
  refine marks_eq_nil (List.any_eq_false.mpr ?_)
  intro c hc
  have hreserved := List.any_eq_false.mp h c hc
  simp only [isReserved, Bool.or_eq_true, not_or, beq_iff_eq] at hreserved
  simp [isMark, hreserved]

end

/-! ## Types that are read -/

/-- Texts that are read as scalars with this id. -/
structure IsScalarId (id : String) : Prop where
  nonempty : id.toList ≠ []
  trimmed : Text.trimChars id.toList = id.toList
  unreserved : id.toList.any isReserved = false
  settled : scalarId id.toList = id

/-- Names of entities in types: any text that is not blank, without blanks around it. -/
structure IsEntityName (name : String) : Prop where
  nonempty : name.toList ≠ []
  trimmed : Text.trimChars name.toList = name.toList

/-- Types that some text is read as. The key of a map is written without a comma that the map would
be split at. -/
inductive Readable : TypeRef → Prop
  | scalar {id : String} (h : IsScalarId id) : Readable (.scalar id)
  | ref {e : String} (h : IsEntityName e) : Readable (.ref e)
  | value {e : String} (h : IsEntityName e) : Readable (.value e)
  | wrapped (w : Wrapper) {t : TypeRef} (h : Readable t) : Readable (w.wrap t)
  | map {k v : TypeRef} (hk : Readable k) (hv : Readable v)
      (hkey : depthAfter? 0 k.text.toList = some 0) : Readable (.map k v)

section
variable {cs : List Char} {t : TypeRef}

theorem isScalarId_scalarId (hne : cs ≠ []) (htrim : Text.trimChars cs = cs)
    (hplain : cs.any isReserved = false) : IsScalarId (scalarId cs) := by
  cases hdot : cs.contains '.' with
  | true =>
    have hid : scalarId cs = String.ofList cs := if_pos hdot
    rw [hid]
    exact ⟨by rwa [String.toList_ofList], by rwa [String.toList_ofList],
      by rwa [String.toList_ofList], by rwa [String.toList_ofList]⟩
  | false =>
    have hchars : (scalarId cs).toList = Text.lowerFrom [] cs := by
      rw [scalarId, hdot, if_neg Bool.false_ne_true, Text.lower, String.toList_ofList,
        String.toList_ofList]
    have hother : ∀ {c : Char}, c.toNat < 0x80 → c.isLower = false → c ∉ cs →
        c ∉ Text.lowerFrom [] cs := fun hascii hlower hc hmem =>
      hc (Text.mem_of_mem_lowerFrom hmem hascii hlower)
    have hdot' : (scalarId cs).toList.contains '.' = false := by
      rw [hchars, ← Bool.not_eq_true, List.contains_iff_mem]
      exact hother (by decide) (by decide) (by simpa using hdot)
    refine ⟨?_, ?_, ?_, ?_⟩
    · obtain ⟨c, r, rfl⟩ := List.exists_cons_of_ne_nil hne
      rw [hchars, Text.lowerFrom_cons]
      exact List.append_ne_nil_of_left_ne_nil (Text.lowerAt_ne_nil _ _ _) _
    · rw [hchars]
      exact Text.trimChars_eq_self_iff.mpr (Text.trimChars_eq_self_iff.mp htrim).lowerFrom
    · rw [hchars, List.any_eq_false]
      intro c hc hreserved
      have hmem : c ∈ cs := by
        simp only [isReserved, Bool.or_eq_true, beq_iff_eq] at hreserved
        obtain (((rfl | rfl) | rfl) | rfl) | rfl := hreserved <;>
          exact Text.mem_of_mem_lowerFrom hc (by decide) (by decide)
      exact List.any_eq_false.mp hplain c hmem hreserved
    · rw [scalarId, hdot', if_neg Bool.false_ne_true, String.ofList_toList]
      have hlower : scalarId cs = Text.lower (String.ofList cs) := by
        rw [scalarId, hdot, if_neg Bool.false_ne_true]
      rw [hlower, Text.lower_lower]

theorem nonBlank?_eq_some {s e : String} :
    Text.nonBlank? s = some e ↔ e = Text.trim s ∧ e.toList ≠ [] := by
  unfold Text.nonBlank?
  dsimp only
  split
  · rename_i hempty
    refine iff_of_false nofun ?_
    rintro ⟨rfl, hne⟩
    exact hne (by simpa using hempty)
  · rename_i hne
    constructor
    · intro h
      cases h
      exact ⟨rfl, by simpa using hne⟩
    · rintro ⟨rfl, -⟩
      rfl

theorem isEntityName_of_nonBlank? {e : String}
    (h : Text.nonBlank? (String.ofList cs) = some e) :
    IsEntityName e ∧ marks e.toList = marks cs := by
  obtain ⟨rfl, hne⟩ := nonBlank?_eq_some.mp h
  rw [Text.toList_trim, String.toList_ofList] at hne
  refine ⟨⟨?_, ?_⟩, ?_⟩
  · rwa [Text.toList_trim, String.toList_ofList]
  · rw [Text.toList_trim, Text.trimChars_trimChars]
  · rw [Text.toList_trim, String.toList_ofList, marks_trimChars]

theorem text_wrap (w : Wrapper) (t : TypeRef) :
    (w.wrap t).text.toList = w.word.toList ++ '<' :: (t.text.toList ++ ['>']) := by
  cases w <;> simp [Wrapper.wrap, text, Wrapper.word]

theorem text_ref (e : String) :
    (ref e).text.toList = "ref".toList ++ '(' :: (e.toList ++ [')']) := by
  show ("ref(" ++ e ++ ")").toList = _
  simp

theorem text_value (e : String) :
    (value e).text.toList = "value".toList ++ '(' :: (e.toList ++ [')']) := by
  show ("value(" ++ e ++ ")").toList = _
  simp

theorem text_map (k v : TypeRef) : (map k v).text.toList =
    "map".toList ++ '<' :: (k.text.toList ++ ',' :: v.text.toList ++ ['>']) := by
  show ("map<" ++ k.text ++ "," ++ v.text ++ ">").toList = _
  simp

end

theorem marks_enclosed {word a b : List Char} (op close : Char)
    (hword : word.any isMark = false) (h : marks a = marks b) :
    marks (word ++ op :: (a ++ [close])) = marks (op :: (b ++ [close])) := by
  have hinner : ∀ l, marks (op :: (l ++ [close])) = marks [op] ++ (marks l ++ marks [close]) := by
    intro l
    rw [← marks_append, ← marks_append]
    rfl
  rw [marks_append, marks_eq_nil hword, hinner, hinner, h]
  rfl

/-- What is read from a text is written with the same brackets and commas. -/
theorem readable_of_parseChars {cs : List Char} {t : TypeRef} (h : parseChars cs = .ok t) :
    Readable t ∧ marks t.text.toList = marks cs := by
  have hread := parseChars_eq_ok.mp h
  have hlength := trimChars_length cs
  rw [← marks_trimChars cs]
  cases hread with
  | scalar hne hplain =>
    have hid := isScalarId_scalarId hne (Text.trimChars_trimChars cs) hplain
    refine ⟨.scalar hid, ?_⟩
    rw [text, marks_of_unreserved hid.unreserved, marks_of_unreserved hplain]
  | ref hargument he =>
    obtain ⟨hname, hmarks⟩ := isEntityName_of_nonBlank? he
    refine ⟨.ref hname, ?_⟩
    rw [marks_of_argument? (by decide) (by decide) hargument, text_ref,
      marks_enclosed _ _ (by decide) hmarks]
  | value hargument he =>
    obtain ⟨hname, hmarks⟩ := isEntityName_of_nonBlank? he
    refine ⟨.value hname, ?_⟩
    rw [marks_of_argument? (by decide) (by decide) hargument, text_value,
      marks_enclosed _ _ (by decide) hmarks]
  | @wrapped w inner t hargument ht =>
    have hinner := argument?_length hargument
    have hword : w.word.toList.any isMark = false := by cases w <;> decide
    obtain ⟨helem, hmarks⟩ := readable_of_parseChars ht
    refine ⟨.wrapped w helem, ?_⟩
    rw [marks_of_argument? (by decide) hword hargument, text_wrap, marks_enclosed _ _ hword hmarks]
  | @map inner a b k v hargument hsplit hk hv =>
    have hinner := argument?_length hargument
    have hparts := splitComma?_length hsplit
    obtain ⟨rfl, hdepth⟩ := splitComma?_eq_some.mp hsplit
    obtain ⟨hkey, hkeyMarks⟩ := readable_of_parseChars hk
    obtain ⟨hvalue, hvalueMarks⟩ := readable_of_parseChars hv
    -- the key is scanned by its marks, which are those of the text it was read from
    have hkeyDepth : depthAfter? 0 k.text.toList = some 0 := by
      rw [← depthAfter?_marks, hkeyMarks, depthAfter?_marks, hdepth]
    have hmarks : marks (k.text.toList ++ ',' :: v.text.toList) = marks (a ++ ',' :: b) := by
      rw [marks_append, hkeyMarks, marks_append]
      exact congrArg (fun l => marks a ++ ',' :: l) hvalueMarks
    refine ⟨.map hkey hvalue hkeyDepth, ?_⟩
    rw [marks_of_argument? (by decide) (by decide) hargument, text_map,
      marks_enclosed _ _ (by decide) hmarks]
termination_by cs.length
decreasing_by all_goals omega

/-! ## Writing and reading back -/

theorem Readable.trim_text {t : TypeRef} (h : Readable t) :
    Text.trimChars t.text.toList = t.text.toList := by
  have hends : ∀ {word inner : List Char} {op close : Char}, word ≠ [] →
      word.any Text.isBlank = false → Text.isBlank close = false →
      Text.trimChars (word ++ op :: (inner ++ [close])) = word ++ op :: (inner ++ [close]) := by
    intro word inner op close hne hword hclose
    obtain ⟨c, r, rfl⟩ := List.exists_cons_of_ne_nil hne
    refine Text.trimChars_eq_self_iff.mpr ⟨?_, ?_⟩
    · have hc := List.any_eq_false.mp hword c List.mem_cons_self
      simpa using hc
    · rw [← List.cons_append, ← List.append_assoc, List.getLast?_concat]
      simpa using hclose
  cases h with
  | scalar h => exact h.trimmed
  | ref h =>
    rw [text_ref]
    exact hends (by decide) (by decide) (by decide)
  | value h =>
    rw [text_value]
    exact hends (by decide) (by decide) (by decide)
  | wrapped w h =>
    rw [text_wrap]
    exact hends (word_ne_nil w) (by cases w <;> decide) (by decide)
  | map hk hv hkey =>
    rw [text_map]
    exact hends (by decide) (by decide) (by decide)

/-- The argument that a word is written with. -/
theorem argument?_written {word inner : List Char} {op close : Char}
    (hword : word.map Char.toLower = word) (hop : Text.isBlank op = false) :
    argument? word op close (word ++ op :: (inner ++ [close])) = some inner :=
  (argument?_eq_some hop).mpr ⟨word, [], rfl, hword, nofun⟩

theorem nonBlank?_of_name {e : String} (h : IsEntityName e) :
    Text.nonBlank? (String.ofList e.toList) = some e := by
  refine nonBlank?_eq_some.mpr ⟨?_, h.nonempty⟩
  rw [Text.trim, String.toList_ofList, h.trimmed, String.ofList_toList]

theorem Readable.parseChars_text {t : TypeRef} (h : Readable t) :
    parseChars t.text.toList = .ok t := by
  rw [parseChars_eq_ok, h.trim_text]
  induction h with
  | @scalar id h =>
    have hread := ReadAs.scalar h.nonempty h.unreserved
    rwa [h.settled] at hread
  | ref h =>
    rw [text_ref]
    exact .ref (argument?_written (by decide) (by decide)) (nonBlank?_of_name h)
  | value h =>
    rw [text_value]
    exact .value (argument?_written (by decide) (by decide)) (nonBlank?_of_name h)
  | wrapped w h ih =>
    rw [text_wrap]
    rw [← h.trim_text] at ih
    exact .wrapped (argument?_wrap w _) (parseChars_eq_ok.mpr ih)
  | map hk hv hkey ihk ihv =>
    rw [text_map]
    rw [← hk.trim_text] at ihk
    rw [← hv.trim_text] at ihv
    exact .map (argument?_written (by decide) (by decide))
      (splitComma?_eq_some.mpr ⟨rfl, hkey⟩) (parseChars_eq_ok.mpr ihk) (parseChars_eq_ok.mpr ihv)

/-- The types that texts are read as are those whose own texts are read. -/
theorem readable_iff {t : TypeRef} : Readable t ↔ ∃ s, parse s = .ok t :=
  ⟨fun h => ⟨t.text, h.parseChars_text⟩, fun ⟨_, h⟩ => (readable_of_parseChars h).1⟩

/-! ## Type ids -/

/-- The type without the names of entities: a reference is the scalar `ref`, an embedded value the
scalar `json`. -/
def nameless : TypeRef → TypeRef
  | scalar id => scalar id
  | ref _ => scalar "ref"
  | value _ => scalar "json"
  | list e => list e.nameless
  | set e => set e.nameless
  | array e => array e.nameless
  | map k v => map k.nameless v.nameless

theorem nameless_wrap (w : Wrapper) (t : TypeRef) : (w.wrap t).nameless = w.wrap t.nameless := by
  cases w <;> rfl

theorem text_nameless (t : TypeRef) : t.nameless.text = t.typeId := by
  induction t with
  | map k v ihk ihv => rw [nameless, text, typeId, ihk, ihv]
  | list e ih | set e ih | array e ih => rw [nameless, text, typeId, ih]
  | _ => rfl

theorem nameless_nameless (t : TypeRef) : t.nameless.nameless = t.nameless := by
  induction t with
  | map k v ihk ihv => simp only [nameless, ihk, ihv]
  | list e ih | set e ih | array e ih => simp only [nameless, ih]
  | _ => rfl

theorem isScalarId_ref : IsScalarId "ref" := ⟨by decide, by decide, by decide, by decide⟩

theorem isScalarId_json : IsScalarId "json" := ⟨by decide, by decide, by decide, by decide⟩

theorem depthAfter?_of_unreserved {cs : List Char} {depth : Int}
    (h : cs.any isReserved = false) : depthAfter? depth cs = some depth := by
  rw [← depthAfter?_marks, marks_of_unreserved h]
  rfl

theorem depthAfter?_enclosed {word inner : List Char} {depth : Int}
    (hword : word.any isMark = false)
    (hinner : depthAfter? (depth + 1) inner = some (depth + 1)) :
    depthAfter? depth (word ++ '<' :: (inner ++ ['>'])) = some depth := by
  rw [← depthAfter?_marks, marks_append, marks_eq_nil hword, List.nil_append, depthAfter?_marks,
    depthAfter?, if_neg (by simp), if_pos rfl, depthAfter?_append, hinner]
  simp [depthAfter?]

/-- Without names of entities brackets are closed and commas stand between brackets. -/
theorem Readable.depthAfter?_nameless {t : TypeRef} (h : Readable t) {depth : Int}
    (hdepth : 0 ≤ depth) : depthAfter? depth t.nameless.text.toList = some depth := by
  induction h generalizing depth with
  | scalar h => exact depthAfter?_of_unreserved h.unreserved
  | ref h => exact depthAfter?_of_unreserved isScalarId_ref.unreserved
  | value h => exact depthAfter?_of_unreserved isScalarId_json.unreserved
  | wrapped w h ih =>
    rw [nameless_wrap, text_wrap]
    exact depthAfter?_enclosed (by cases w <;> decide) (ih (by omega))
  | map hk hv hkey ihk ihv =>
    rw [nameless, text_map]
    refine depthAfter?_enclosed (by decide) ?_
    rw [depthAfter?_append, ihk (by omega), Option.bind_some, depthAfter?,
      if_neg (by omega), if_neg (by decide), if_neg (by decide)]
    exact ihv (by omega)

theorem Readable.nameless {t : TypeRef} (h : Readable t) : Readable t.nameless := by
  induction h with
  | scalar h => exact .scalar h
  | ref h => exact .scalar isScalarId_ref
  | value h => exact .scalar isScalarId_json
  | wrapped w h ih =>
    rw [nameless_wrap]
    exact .wrapped w ih
  | map hk hv hkey ihk ihv => exact .map ihk ihv (hk.depthAfter?_nameless (Int.le_refl 0))

theorem Readable.parseChars_typeId {t : TypeRef} (h : Readable t) :
    parseChars t.typeId.toList = .ok t.nameless := by
  rw [← text_nameless]
  exact h.nameless.parseChars_text

theorem typeId_nameless (t : TypeRef) : t.nameless.typeId = t.typeId := by
  rw [← text_nameless, nameless_nameless, text_nameless]

theorem Readable.trimChars_typeId {t : TypeRef} (h : Readable t) :
    Text.trimChars t.typeId.toList = t.typeId.toList := by
  rw [← text_nameless]
  exact h.nameless.trim_text

theorem Readable.trim_typeId {t : TypeRef} (h : Readable t) : Text.trim t.typeId = t.typeId := by
  rw [Text.trim, h.trimChars_typeId, String.ofList_toList]

/-! ## Ids of elements -/

theorem Wrapper.wrap_inj {w w' : Wrapper} {t t' : TypeRef} (h : w.wrap t = w'.wrap t') :
    w = w' ∧ t = t' := by
  cases w <;> cases w' <;> cases h <;> exact ⟨rfl, rfl⟩

theorem Readable.of_wrap {w : Wrapper} {t : TypeRef} (h : Readable (w.wrap t)) : Readable t := by
  generalize hs : w.wrap t = s at h
  cases h with
  | wrapped w' h => exact (Wrapper.wrap_inj hs).2 ▸ h
  | _ => cases w <;> cases hs

theorem exists_wrap_of_nameless {t elem : TypeRef} {w : Wrapper} (h : t.nameless = w.wrap elem) :
    ∃ elem', t = w.wrap elem' := by
  cases t with
  | list e | set e | array e =>
    cases w with
    | list | set | array => first | exact ⟨e, rfl⟩ | cases h
  | _ => cases w <;> cases h

/-- The id of a container whose elements have the given id, which may be any text. -/
def Wrapper.around (w : Wrapper) (inner : String) : String := w.word ++ "<" ++ inner ++ ">"

section
variable (w : Wrapper) {inner : String} {e : TypeRef}

theorem toList_around (inner : String) :
    (w.around inner).toList = w.word.toList ++ '<' :: (inner.toList ++ ['>']) := by
  simp [Wrapper.around]

theorem typeId_eq_around (e : TypeRef) : (w.wrap e).typeId = w.around e.typeId := by
  apply String.toList_injective
  rw [Wrapper.typeId_wrap, toList_around]

theorem trimChars_around (inner : String) :
    Text.trimChars (w.around inner).toList = (w.around inner).toList := by
  have hclose : Text.isBlank '>' = false := by decide
  have hstart : Text.trimStartChars (w.around inner).toList = (w.around inner).toList := by
    rw [toList_around]
    cases w <;> rfl
  rw [Text.trimChars, hstart, toList_around, Text.trimEndChars]
  simp [hclose]

theorem parse_around (h : parse inner = .ok e) : parse (w.around inner) = .ok (w.wrap e) := by
  have hargument : argument? w.word.toList '<' '>' (Text.trimChars (w.around inner).toList) =
      some inner.toList := by
    rw [trimChars_around, toList_around]
    exact argument?_wrap w inner.toList
  exact parseChars_of_readAs (.wrapped hargument h)

theorem elementTypeId?_around (inner : String) :
    elementTypeId? (w.around inner) = some (Text.trim inner) := by
  have htrim : Text.trim (w.around inner) = w.around inner := by
    rw [Text.trim, trimChars_around, String.ofList_toList]
  have hafter : ["list<", "set<", "array<"].findSome? (Text.after? · (w.around inner)) =
      some (inner ++ ">") := by
    cases w <;> simp [Text.after?, toList_around, Wrapper.word, List.isPrefixOf?]
  have hbefore : Text.before? ">" (inner ++ ">") = some inner := by
    simp [Text.before?, List.isSuffixOf?, List.isPrefixOf?]
  unfold elementTypeId?
  dsimp only
  rw [htrim, hafter]
  dsimp only
  rw [hbefore, Option.map_some]

theorem elementTypeId?_wrap {t : TypeRef} (h : Readable t) :
    elementTypeId? (w.wrap t).typeId = some t.typeId := by
  rw [typeId_eq_around, elementTypeId?_around, h.trim_typeId]

end

/-- Exactly the ids of lists, sets and arrays have an element. -/
theorem Readable.elementTypeId?_eq_some {t : TypeRef} (h : Readable t) {e : String} :
    elementTypeId? t.typeId = some e ↔ ∃ w elem, t = Wrapper.wrap w elem ∧ e = elem.typeId := by
  have hwrapped : ∀ {w elem}, t = Wrapper.wrap w elem →
      elementTypeId? t.typeId = some elem.typeId := by
    rintro w elem rfl
    exact elementTypeId?_wrap w h.of_wrap
  constructor
  · intro he
    obtain ⟨w, inner, hchars, -⟩ := Polystore.elementTypeId?_eq_some he
    have hargument := argument?_wrap w inner
    rw [← hchars] at hargument
    obtain ⟨hlength, hshape⟩ := shape_of_argument hargument
    have hparse := h.parseChars_typeId
    rw [← h.trimChars_typeId, parseChars_wrapped (Text.trimChars_trimChars _) hshape, map_eq_ok] at hparse
    obtain ⟨elem, -, hnameless⟩ := hparse
    obtain ⟨elem', ht⟩ := exists_wrap_of_nameless hnameless.symm
    exact ⟨w, elem', ht, Option.some.inj (he.symm.trans (hwrapped ht))⟩
  · rintro ⟨w, elem, ht, rfl⟩
    exact hwrapped ht

/-- A type that was read from a text is read from the text it is written as, and from its id but for
the names of entities; its id names the type of its elements exactly if it is a list, a set or an
array. -/
theorem written_types_read {s : String} {t : TypeRef} (h : parse s = .ok t) :
    parse t.text = .ok t ∧ parse t.typeId = .ok t.nameless ∧
      ∀ e, elementTypeId? t.typeId = some e ↔
        ∃ w elem, t = Wrapper.wrap w elem ∧ e = elem.typeId := by
  obtain ⟨hread, -⟩ := readable_of_parseChars h
  exact ⟨hread.parseChars_text, hread.parseChars_typeId, fun _ => hread.elementTypeId?_eq_some⟩

/-- A map whose entity names hold a comma, brackets and a bracket that was never opened. -/
theorem namesWithMarks_read :
    let s := " Map< LIST<ref ( A<b,c> )>, set<VALUE(p>,q )> > "
    let t := map (list (ref "A<b,c>")) (set (value "p>,q"))
    parse s = .ok t ∧ parse t.text = .ok t ∧
      parse t.typeId = .ok (map (list (scalar "ref")) (set (scalar "json"))) ∧
      elementTypeId? t.typeId = none := by
  intro s t
  have hkey : parseChars " LIST<ref ( A<b,c> )>".toList = .ok (list (ref "A<b,c>")) := by
    have hargument : argument? "ref".toList '(' ')' "ref ( A<b,c> )".toList =
        some " A<b,c> ".toList := by decide
    have hentity : parseChars "ref ( A<b,c> )".toList = .ok (ref "A<b,c>") :=
      parseChars_of_readAs (.ref hargument (by decide))
    exact parseChars_of_readAs (.wrapped (w := .list) (by decide) hentity)
  have hvalue : parseChars " set<VALUE(p>,q )> ".toList = .ok (set (value "p>,q")) := by
    have hargument : argument? "value".toList '(' ')' "VALUE(p>,q )".toList =
        some "p>,q ".toList := by decide
    have hentity : parseChars "VALUE(p>,q )".toList = .ok (value "p>,q") :=
      parseChars_of_readAs (.value hargument (by decide))
    exact parseChars_of_readAs (.wrapped (w := .set) (by decide) hentity)
  have hread : parse s = .ok t := by
    have hargument : argument? "map".toList '<' '>' (Text.trimChars s.toList) =
        some " LIST<ref ( A<b,c> )>, set<VALUE(p>,q )> ".toList := by decide
    exact parseChars_of_readAs (.map hargument (by decide) hkey hvalue)
  obtain ⟨hback, hid, helem⟩ := written_types_read hread
  refine ⟨hread, hback, hid, Option.eq_none_iff_forall_ne_some.mpr ?_⟩
  intro e he
  obtain ⟨w, elem, ht, -⟩ := (helem e).mp he
  cases w <;> exact nomatch ht

end Polystore.TypeRef
