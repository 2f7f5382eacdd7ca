import Polystore.Proofs.Entries
import Polystore.Proofs.Outcome
import Polystore.Sql.Predicate
import Polystore.Value.Path

/-! # Paths as array literals

A test for a JSON path names the path as the literal of an array of texts, with its segments written
one after the other between commas. The store takes the literal out of its quotes and reads the array
by the rules for arrays. It finds the segments again if and only if each of them is plain text under
these rules; the test of a JSON value takes all segments as they are. -/

namespace Polystore.Sql
set_option autoImplicit false

open Tokens (key spaced)

/-! ## Reading literals -/

/-- The text of a literal behind its opening quote, in which quotes are written twice. -/
def unquoteFrom : List Char → Option (List Char)
  | [] => none
  | c :: r =>
    if c = '\'' then
      match r with
      | [] => some []
      | d :: r => if d = '\'' then (unquoteFrom r).map ('\'' :: ·) else none
    else (unquoteFrom r).map (c :: ·)

def unquote? : List Char → Option (List Char)
  | [] => none
  | c :: r => if c = '\'' then unquoteFrom r else none

/-! ## Reading arrays -/

def isArrayBlank (c : Char) : Bool := c == ' ' || '\t' ≤ c && c ≤ '\r'

/-- What has been read of an element. -/
inductive Reading where
  /-- Its text so far, the blanks behind the text, and whether a character of it was escaped. -/
  | bare (text blanks : List Char) (escaped : Bool)
  /-- The text so far behind a double quote. -/
  | quoted (text : List Char)
  /-- The whole text, between double quotes. -/
  | ended (text : List Char)

/-- The word NULL is no text, unless a part of it is quoted or escaped. -/
def bareElement (text : List Char) (escaped : Bool) : Option String :=
  if !escaped && text.map Char.toLower == "null".toList then none else some (String.ofList text)

/-- The elements up to the closing brace, behind which there may be blanks. -/
def readElements : Reading → List Char → Option (List (Option String))
  | _, [] => none
  | .bare text blanks escaped, c :: r =>
    if isArrayBlank c then
      readElements (.bare text (if text.isEmpty then [] else blanks ++ [c]) escaped) r
    else if c = '\\' then
      match r with
      | [] => none
      | d :: r => readElements (.bare (text ++ blanks ++ [d]) [] true) r
    else if c = '"' then if text.isEmpty then readElements (.quoted []) r else none
    else if c = ',' then
      if text.isEmpty then none
      else (readElements (.bare [] [] false) r).map (bareElement text escaped :: ·)
    else if c = '}' then
      if text.isEmpty || !r.all isArrayBlank then none else some [bareElement text escaped]
    else if c = '{' then none
    else readElements (.bare (text ++ blanks ++ [c]) [] escaped) r
  | .quoted text, c :: r =>
    if c = '\\' then
      match r with
      | [] => none
      | d :: r => readElements (.quoted (text ++ [d])) r
    else if c = '"' then readElements (.ended text) r
    else readElements (.quoted (text ++ [c])) r
  | .ended text, c :: r =>
    if isArrayBlank c then readElements (.ended text) r
    else if c = ',' then
      (readElements (.bare [] [] false) r).map (some (String.ofList text) :: ·)
    else if c = '}' then if r.all isArrayBlank then some [some (String.ofList text)] else none
    else none

/-- The elements of an array of one dimension; those without a text are null. -/
def textArray? (cs : List Char) : Option (List (Option String)) :=
  match cs.dropWhile isArrayBlank with
  | [] => none
  | c :: r =>
    if c ≠ '{' then none
    else match r.dropWhile isArrayBlank with
      | [] => none
      | d :: s =>
        if d = '}' then if s.all isArrayBlank then some [] else none
        else readElements (.bare [] [] false) r

/-- What the store reads from a literal that stands for an array of texts. -/
def literalElements? (t : Token) : Option (List (Option String)) :=
  (unquote? t.chars).bind textArray?

/-- The characters that mean something in an array, blanks aside. -/
def arraySigns : List Char := [',', '{', '}', '"', '\\']

/-- Text that an array literal holds as it is: not empty, without characters that mean something in
arrays, without blanks at its ends, and not the word NULL. -/
structure PlainElement (s : String) : Prop where
  ne_empty : s.toList ≠ []
  bare : ∀ c ∈ s.toList, c ∉ arraySigns
  first : ∀ c ∈ s.toList.head?, isArrayBlank c = false
  last : ∀ c ∈ s.toList.getLast?, isArrayBlank c = false
  ne_null : s.toList.map Char.toLower ≠ "null".toList

/-! ## Nothing is read twice -/

/-- The characters of some elements, and one behind each of them. -/
def extent : List (Option String) → Nat
  | [] => 0
  | e :: es => (e.elim 0 String.length + 1) + extent es

/-- How many characters have been read that the text of an element may come to. -/
def Reading.held : Reading → Nat
  | bare text blanks _ => text.length + blanks.length
  | quoted text => text.length
  | ended text => text.length

section
variable {st : Reading} {cs : List Char} {es : List (Option String)}

theorem bareElement_extent (text : List Char) (escaped : Bool) :
    (bareElement text escaped).elim 0 String.length ≤ text.length := by
  unfold bareElement
  split
  · exact Nat.zero_le _
  · exact Nat.le_of_eq String.length_ofList

/-- The elements are not longer than what they are read from. -/
theorem extent_le (h : readElements st cs = some es) : extent es ≤ st.held + cs.length := by
  fun_induction readElements st cs generalizing es with
  | case1 | case3 | case6 | case7 | case9 | case11 | case13 | case20 | case21 => cases h
  | case2 text blanks escaped c r hc ih =>
    have hle := ih h
    simp only [Reading.held, List.length_cons] at hle ⊢
    split at hle
    · simp only [List.length_nil] at hle
      omega
    · simp only [List.length_append, List.length_cons, List.length_nil] at hle
      omega
  | case4 | case5 | case12 | case14 | case15 | case16 | case17 =>
    rename_i ih
    have hle := ih h
    simp only [Reading.held, List.length_append, List.length_cons, List.length_nil] at hle ⊢
    omega
  | case8 text blanks escaped r htext _ _ _ ih =>
    obtain ⟨es, hes, rfl⟩ := Option.map_eq_some_iff.mp h
    have hle := ih hes
    have helement := bareElement_extent text escaped
    simp only [Reading.held, List.length_cons, List.length_nil, extent] at hle ⊢
    omega
  | case10 text blanks escaped r =>
    cases h
    have helement := bareElement_extent text escaped
    simp only [Reading.held, List.length_cons, extent]
    omega
  | case18 text r _ ih =>
    obtain ⟨es, hes, rfl⟩ := Option.map_eq_some_iff.mp h
    have hle := ih hes
    simp only [Reading.held, List.length_cons, List.length_nil, extent, Option.elim_some,
      String.length_ofList] at hle ⊢
    omega
  | case19 text r =>
    cases h
    simp only [Reading.held, List.length_cons, extent, Option.elim_some, String.length_ofList]
    omega

end

/-! ## Plain elements -/

/-- A bare element has been begun, and can still become one that is plain. -/
structure Begun (text blanks : List Char) : Prop where
  bare : ∀ c ∈ text ++ blanks, c ∉ arraySigns
  first : ∀ c ∈ text.head?, isArrayBlank c = false
  last : ∀ c ∈ text.getLast?, isArrayBlank c = false
  empty : text = [] → blanks = []

section
variable {text blanks cs : List Char} {ss : List String}

theorem begun_nil : Begun [] [] := ⟨nofun, nofun, nofun, fun _ => rfl⟩

theorem Begun.blank (h : Begun text blanks) (htext : text ≠ []) {c : Char}
    (hc : isArrayBlank c = true) : Begun text (blanks ++ [c]) where
  bare := by
    rw [← List.append_assoc, List.forall_mem_append, List.forall_mem_singleton]
    refine ⟨h.bare, fun hsign => ?_⟩
    simp only [arraySigns, List.mem_cons, List.not_mem_nil, or_false] at hsign
    rcases hsign with rfl | rfl | rfl | rfl | rfl <;> exact absurd hc (by decide)
  first := h.first
  last := h.last
  empty he := absurd he htext

theorem Begun.next (h : Begun text blanks) {c : Char} (hc : isArrayBlank c = false)
    (hsign : c ∉ arraySigns) : Begun (text ++ blanks ++ [c]) [] where
  bare := by
    rw [List.append_nil, List.forall_mem_append, List.forall_mem_singleton]
    exact ⟨h.bare, hsign⟩
  first := by
    cases htext : text with
    | nil =>
      rw [h.empty htext]
      simpa using hc
    | cons d text =>
      have hfirst := h.first
      rw [htext] at hfirst
      exact hfirst
  last := by simpa using hc
  empty he := by simp at he

theorem Begun.plain (h : Begun text []) (htext : text ≠ [])
    (hnull : text.map Char.toLower ≠ "null".toList) : PlainElement (String.ofList text) where
  ne_empty := by rwa [String.toList_ofList]
  bare := by
    rw [String.toList_ofList]
    simpa using h.bare
  first := by rw [String.toList_ofList]; exact h.first
  last := by rw [String.toList_ofList]; exact h.last
  ne_null := by rwa [String.toList_ofList]

/-- An element is plain if all that was read belongs to it. -/
theorem Begun.element (h : Begun text blanks) (htext : text ≠ []) {s : String}
    (hs : bareElement text false = some s) (hlength : text.length + blanks.length ≤ s.length) :
    PlainElement s := by
  unfold bareElement at hs
  split at hs
  · cases hs
  · rename_i hnull
    obtain rfl := Option.some.inj hs
    rw [String.length_ofList] at hlength
    obtain rfl : blanks = [] := List.eq_nil_of_length_eq_zero (by omega)
    exact h.plain htext (by simpa using hnull)

/-- What a character of a bare element can do: it is passed over, so that the rest has to make up for
it, it is a blank that may turn out to be inside, it ends the element, or it belongs to its text. -/
theorem readElements_bare {c : Char} {r : List Char} {escaped : Bool} {es : List (Option String)}
    (h : readElements (.bare text blanks escaped) (c :: r) = some es) :
    (∃ st rest, readElements st rest = some es ∧
      st.held + rest.length ≤ text.length + blanks.length + r.length) ∨
    (isArrayBlank c = true ∧ text ≠ [] ∧
      readElements (.bare text (blanks ++ [c]) escaped) r = some es) ∨
    (c = ',' ∧ text ≠ [] ∧ ∃ rest, readElements (.bare [] [] false) r = some rest ∧
      es = bareElement text escaped :: rest) ∨
    (c = '}' ∧ text ≠ [] ∧ es = [bareElement text escaped]) ∨
    (isArrayBlank c = false ∧ c ∉ arraySigns ∧
      readElements (.bare (text ++ blanks ++ [c]) [] escaped) r = some es) := by
  rw [readElements.eq_def] at h
  simp only at h
  split_ifs at h with hblank htext hescape hquote htext hcomma htext hclose hend hopen
  · refine .inl ⟨_, _, h, ?_⟩
    simp only [Reading.held, List.length_nil]
    omega
  · exact .inr (.inl ⟨hblank, by simpa using htext, h⟩)
  · cases r with
    | nil => cases h
    | cons d r =>
      refine .inl ⟨_, _, h, ?_⟩
      simp only [Reading.held, List.length_append, List.length_cons, List.length_nil]
      omega
  · refine .inl ⟨_, _, h, ?_⟩
    simp only [Reading.held, List.length_nil]
    omega
  · obtain ⟨rest, hrest, rfl⟩ := Option.map_eq_some_iff.mp h
    exact .inr (.inr (.inl ⟨hcomma, by simpa using htext, rest, hrest, rfl⟩))
  · simp only [Bool.or_eq_true, not_or] at hend
    exact .inr (.inr (.inr (.inl ⟨hclose, by simpa using hend.1, (Option.some.inj h).symm⟩)))
  · have hsign : c ∉ arraySigns := by
      simp only [arraySigns, List.mem_cons, List.not_mem_nil, or_false, not_or]
      exact ⟨hcomma, hopen, hclose, hquote, hescape⟩
    exact .inr (.inr (.inr (.inr ⟨by simpa using hblank, hsign, h⟩)))

/-- If the elements are as long as what they are read from, then nothing in it was a quote, an
escape or a blank that is dropped. -/
theorem plain_of_extent (h : readElements (.bare text blanks false) cs = some (ss.map some))
    (hextent : text.length + blanks.length + cs.length ≤ extent (ss.map some))
    (hbegun : Begun text blanks) : ∀ s ∈ ss, PlainElement s := by
  induction cs generalizing text blanks ss with
  | nil => simp [readElements] at h
  | cons c r ih =>
    rw [List.length_cons] at hextent
    rcases readElements_bare h with ⟨st, rest, hrest, hlen⟩ | ⟨hblank, htext, hrest⟩ |
      ⟨rfl, htext, rest, hrest, hes⟩ | ⟨rfl, htext, hes⟩ | ⟨hblank, hsign, hrest⟩
    · -- A character that is passed over is missing in the elements.
      have hle := extent_le hrest
      omega
    · refine ih hrest ?_ (hbegun.blank htext hblank)
      simp only [List.length_append, List.length_singleton]
      omega
    · obtain ⟨s, ss, rfl, helement, rfl⟩ := List.map_eq_cons_iff.mp hes
      have hlength := bareElement_extent text false
      have hle := extent_le hrest
      rw [← helement, Option.elim_some] at hlength
      rw [List.map_cons, extent, Option.elim_some] at hextent
      simp only [Reading.held, List.length_nil] at hle
      have hrest' : ([] : List Char).length + ([] : List Char).length + r.length ≤
          extent (ss.map some) := by
        simp only [List.length_nil]
        omega
      rw [List.forall_mem_cons]
      exact ⟨hbegun.element htext helement.symm (by omega), ih hrest hrest' begun_nil⟩
    · obtain ⟨s, rfl, helement⟩ := List.map_eq_singleton_iff.mp hes
      simp only [List.map_singleton, extent, Option.elim_some] at hextent
      rw [List.forall_mem_singleton]
      exact hbegun.element htext helement.symm (by omega)
    · refine ih hrest ?_ (hbegun.next hblank hsign)
      simp only [List.length_append, List.length_singleton, List.length_nil]
      omega

theorem bareElement_plain {s : String} (hs : PlainElement s) :
    bareElement s.toList false = some s := by
  unfold bareElement
  rw [if_neg (by simpa using hs.ne_null), String.ofList_toList]

theorem readElements_blank {c : Char} {escaped : Bool} {r : List Char}
    (hc : isArrayBlank c = true) (htext : text ≠ []) :
    readElements (.bare text blanks escaped) (c :: r) =
      readElements (.bare text (blanks ++ [c]) escaped) r := by
  rw [readElements.eq_def]
  simp only [hc, if_true]
  rw [if_neg (by simpa using htext)]

theorem readElements_next {c : Char} {escaped : Bool} {r : List Char}
    (hc : isArrayBlank c = false) (hsign : c ∉ arraySigns) :
    readElements (.bare text blanks escaped) (c :: r) =
      readElements (.bare (text ++ blanks ++ [c]) [] escaped) r := by
  simp only [arraySigns, List.mem_cons, List.not_mem_nil, or_false, not_or] at hsign
  obtain ⟨hcomma, hopen, hclose, hquote, hescape⟩ := hsign
  rw [readElements.eq_def]
  simp only [hc, Bool.false_eq_true, if_false, hcomma, hopen, hclose, hquote, hescape]

theorem readElements_comma {escaped : Bool} {r : List Char} (htext : text ≠ []) :
    readElements (.bare text blanks escaped) (',' :: r) =
      (readElements (.bare [] [] false) r).map (bareElement text escaped :: ·) := by
  rw [readElements.eq_def]
  simp [isArrayBlank, htext]

theorem readElements_close {escaped : Bool} (htext : text ≠ []) :
    readElements (.bare text blanks escaped) ['}'] = some [bareElement text escaped] := by
  rw [readElements.eq_def]
  simp [isArrayBlank, htext]

/-- Characters without a meaning are taken into the element, but for the blanks at their end. -/
theorem readElements_append {u : List Char} (hu : ∀ c ∈ u, c ∉ arraySigns) (htext : text ≠ [])
    (hblanks : ∀ c ∈ blanks, isArrayBlank c = true) (escaped : Bool) (r : List Char) :
    ∃ text' blanks', text' ++ blanks' = text ++ blanks ++ u ∧
      (∀ c ∈ blanks', isArrayBlank c = true) ∧
      readElements (.bare text blanks escaped) (u ++ r) =
        readElements (.bare text' blanks' escaped) r := by
  induction u generalizing text blanks with
  | nil => exact ⟨text, blanks, (List.append_nil _).symm, hblanks, rfl⟩
  | cons c u ih =>
    rw [List.forall_mem_cons] at hu
    cases hc : isArrayBlank c with
    | true =>
      have hmore : ∀ d ∈ blanks ++ [c], isArrayBlank d = true := by
        rw [List.forall_mem_append, List.forall_mem_singleton]
        exact ⟨hblanks, hc⟩
      obtain ⟨text', blanks', happend, hblanks', hread⟩ := ih hu.2 htext hmore
      refine ⟨text', blanks', by simpa using happend, hblanks', ?_⟩
      rw [List.cons_append, readElements_blank hc htext, hread]
    | false =>
      have hmore : text ++ blanks ++ [c] ≠ [] := by simp
      have hnone : ∀ d ∈ ([] : List Char), isArrayBlank d = true := nofun
      obtain ⟨text', blanks', happend, hblanks', hread⟩ := ih hu.2 hmore hnone
      refine ⟨text', blanks', by simpa using happend, hblanks', ?_⟩
      rw [List.cons_append, readElements_next hc hu.1, hread]

theorem readElements_plain {s : String} (hs : PlainElement s) (r : List Char) :
    readElements (.bare [] [] false) (s.toList ++ r) =
      readElements (.bare s.toList [] false) r := by
  obtain ⟨c, u, hcu⟩ := List.exists_cons_of_ne_nil hs.ne_empty
  have hbare := hs.bare
  have hfirst := hs.first
  have hlast := hs.last
  rw [hcu, List.forall_mem_cons] at hbare
  rw [hcu] at hfirst hlast ⊢
  have hbegun : ∀ d ∈ ([] : List Char), isArrayBlank d = true := nofun
  obtain ⟨text, blanks, happend, hblanks, hread⟩ :=
    readElements_append hbare.2 (List.cons_ne_nil c []) hbegun false r
  -- The last character is no blank, so that none of them is left behind the text.
  have hnone : blanks = [] := by
    by_contra hsome
    have hmem : blanks.getLast hsome ∈ (c :: u).getLast? := by
      have hwhole : c :: u = text ++ blanks := by simpa using happend.symm
      rw [hwhole, List.getLast?_append_of_ne_nil _ hsome, List.getLast?_eq_some_getLast hsome]
      exact rfl
    have hblank := hblanks _ (List.getLast_mem hsome)
    rw [hlast _ hmem] at hblank
    cases hblank
  subst hnone
  have htext : text = c :: u := by simpa using happend
  rw [List.cons_append, readElements_next (hfirst c rfl) hbare.1]
  exact hread.trans (by rw [htext])

theorem readElements_intercalate (hss : ss ≠ []) (hplain : ∀ s ∈ ss, PlainElement s) :
    readElements (.bare [] [] false) ((",".intercalate ss).toList ++ ['}']) =
      some (ss.map some) := by
  induction ss with
  | nil => exact absurd rfl hss
  | cons s ss ih =>
    rw [List.forall_mem_cons] at hplain
    obtain ⟨hs, hrest⟩ := hplain
    cases ss with
    | nil =>
      rw [String.intercalate_singleton, readElements_plain hs, readElements_close hs.ne_empty,
        bareElement_plain hs]
      rfl
    | cons t ss =>
      rw [String.intercalate_cons_cons, String.toList_append, String.toList_append,
        List.append_assoc, List.append_assoc, readElements_plain hs]
      change readElements _ (',' :: ((",".intercalate (t :: ss)).toList ++ ['}'])) = _
      rw [readElements_comma hs.ne_empty, ih (by simp) hrest, bareElement_plain hs]
      rfl

theorem extent_intercalate (hss : ss ≠ []) :
    extent (ss.map some) = (",".intercalate ss).length + 1 := by
  induction ss with
  | nil => exact absurd rfl hss
  | cons s ss ih =>
    cases ss with
    | nil => simp [extent]
    | cons t ss =>
      have hrest := ih (by simp)
      rw [List.map_cons, extent, hrest, String.intercalate_cons_cons]
      simp only [Option.elim_some, String.length_append]
      have hcomma : ",".length = 1 := rfl
      omega

end

/-! ## Whole literals -/

theorem unquoteFrom_doubled (cs : List Char) :
    unquoteFrom (doubled '\'' cs ++ ['\'']) = some cs := by
  induction cs with
  | nil => rfl
  | cons c cs ih =>
    unfold doubled
    split_ifs with hc
    · subst hc
      simp [unquoteFrom, ih]
    · rw [List.cons_append, unquoteFrom.eq_def]
      simp only [hc, if_false, ih, Option.map_some]

theorem unquote?_litString (s : String) : unquote? (Token.litString s).chars = some s.toList := by
  change unquote? (quotedBy '\'' s.toList) = _
  rw [quotedBy, List.cons_append, unquote?, if_pos rfl]
  exact unquoteFrom_doubled s.toList

theorem readElements_dropWhile (cs : List Char) :
    readElements (.bare [] [] false) (cs.dropWhile isArrayBlank) =
      readElements (.bare [] [] false) cs := by
  induction cs with
  | nil => rfl
  | cons c r ih =>
    cases hc : isArrayBlank c with
    | true =>
      rw [List.dropWhile_cons_of_pos hc, ih, readElements.eq_def _ (c :: r)]
      simp [hc]
    | false => rw [List.dropWhile_cons_of_neg (by simp [hc])]

/-- Between braces that hold something there are elements. -/
theorem textArray?_braced {r : List Char} {es : List (Option String)} (hes : es ≠ []) :
    textArray? ('{' :: r) = some es ↔ readElements (.bare [] [] false) r = some es := by
  have hdrop : ('{' :: r).dropWhile isArrayBlank = '{' :: r := rfl
  have hclose : ∀ s, readElements (.bare [] [] false) ('}' :: s) = none := by
    intro s
    rw [readElements.eq_def]
    simp [isArrayBlank]
  unfold textArray?
  rw [hdrop]
  simp only [ne_eq, not_true_eq_false, if_false]
  rw [← readElements_dropWhile r]
  cases r.dropWhile isArrayBlank with
  | nil => simp [readElements]
  | cons d s =>
    simp only
    split_ifs with hd hblank
    · subst hd
      simp [hclose, hes.symm]
    · subst hd
      simp [hclose]
    · exact Iff.rfl

theorem toList_pathLiteral (ss : List String) :
    (Dialect.pathLiteral ss).toList = '{' :: ((",".intercalate ss).toList ++ ['}']) := by
  simp only [Dialect.pathLiteral, String.toList_append, List.append_assoc]
  rfl

/-- The store finds all segments of a path if and only if they are plain. -/
theorem literalElements?_pathLiteral (ss : List String) :
    literalElements? (.litString (Dialect.pathLiteral ss)) = some (ss.map some) ↔
      ∀ s ∈ ss, PlainElement s := by
  rw [literalElements?, unquote?_litString, Option.bind_some, toList_pathLiteral]
  by_cases hss : ss = []
  · subst hss
    exact iff_of_true rfl nofun
  · rw [textArray?_braced (by simpa using hss)]
    refine ⟨fun h => plain_of_extent h ?_ begun_nil, readElements_intercalate hss⟩
    rw [extent_intercalate hss, List.length_append, String.length_toList]
    simp

/-! ## Places of values -/

section
variable {v w : Value} {ks ss : List String}

theorem size_atSegments? (h : Value.atSegments? ks v = some w) :
    sizeOf w + ks.length ≤ sizeOf v := by
  fun_induction Value.atSegments? ks v with
  | case1 v =>
    cases h
    exact Nat.le_refl _
  | case2 k ks m v hlookup ih =>
    have hsize := ih h
    have hmem : sizeOf (k, v) < sizeOf m := List.sizeOf_lt_of_mem (Entries.mem_of_lookup hlookup)
    simp only [Prod.mk.sizeOf_spec, Value.map.sizeOf_spec, List.length_cons] at hmem ⊢
    omega
  | case3 | case4 => cases h

theorem atSegments?_wrap_self (ss : List String) (v : Value) :
    Value.atSegments? ss (JsonPath.wrap ss v) = some v := by
  induction ss with
  | nil => rfl
  | cons s ss ih => simp [JsonPath.wrap, Value.atSegments?, ih]

/-- A wrapped value is where its segments lead to, and nowhere else. -/
theorem atSegments?_wrap :
    Value.atSegments? ks (JsonPath.wrap ss v) = some v ↔ ks = ss := by
  constructor
  · intro h
    induction ss generalizing ks with
    | nil =>
      have hsize := size_atSegments? h
      exact List.eq_nil_of_length_eq_zero (by simp only [JsonPath.wrap] at hsize; omega)
    | cons s ss ih =>
      cases ks with
      | nil =>
        have hsize := size_atSegments? (atSegments?_wrap_self (s :: ss) v)
        rw [Value.atSegments?, Option.some.injEq] at h
        rw [h, List.length_cons] at hsize
        omega
      | cons k ks =>
        by_cases hk : k = s
        · subst hk
          have hrest : Value.atSegments? ks (JsonPath.wrap ss v) = some v := by
            simpa [JsonPath.wrap, Value.atSegments?] using h
          rw [ih hrest]
        · simp [JsonPath.wrap, Value.atSegments?, List.lookup_cons, beq_false_of_ne hk] at h
  · rintro rfl
    exact atSegments?_wrap_self ks v

theorem fragment_of_segments (hss : ss ≠ []) (v : Value) :
    JsonPath.fragment ss v = JsonPath.wrap ss v := by
  have hempty : ¬ss.isEmpty = true := by simpa using hss
  unfold JsonPath.fragment
  exact if_neg hempty

end

/-! ## Both tests -/

section
variable {s : Scope} {n : Nat} {c : Condition} {negate : Bool} {r : Bound Pred}

theorem condition_jsonPathExists (hop : c.operator = .jsonPathExists)
    (h : condition .postgres s n c negate = .ok r) :
    ∃ path, c.value = .str path ∧
      r = (.test (spaced [Dialect.binary (s.view.refPath c.property) "#>"
        (.litString (Dialect.pathLiteral (JsonPath.segments path))), key .isNotNull])
        (c.negated ^^ negate), []) := by
  unfold condition at h
  obtain ⟨typeId, -, h⟩ := bind_eq_ok.mp h
  rw [hop] at h
  obtain ⟨b, hb, rfl⟩ := map_eq_ok.mp h
  obtain ⟨ts, hts, rfl⟩ := map_eq_ok.mp hb
  unfold jsonPathTest at hts
  split at hts
  · rename_i path hpath
    cases lift_eq_ok.mp hts
    exact ⟨path, hpath, rfl⟩
  · cases hts

theorem condition_jsonValueEq {path : String} {v : Value} (hop : c.operator = .jsonValueEq)
    (hvalue : JsonPath.operand? c.value = some (path, v))
    (h : condition .postgres s n c negate = .ok r) :
    r.2 = [⟨JsonPath.fragment (JsonPath.segments path) v, "json"⟩] := by
  unfold condition at h
  obtain ⟨typeId, -, h⟩ := bind_eq_ok.mp h
  rw [hop] at h
  obtain ⟨b, hb, rfl⟩ := map_eq_ok.mp h
  unfold jsonValueTest at hb
  rw [hvalue] at hb
  obtain ⟨ts, -, rfl⟩ := map_eq_ok.mp hb
  rfl

/-- A test for a path names its segments to the store if and only if all of them are plain, while a
test of the value at this path looks for the value at the segments whatever they are. -/
theorem path_literal_names_segments (hop : c.operator = .jsonPathExists)
    (h : condition .postgres s n c negate = .ok r) :
    ∃ path, c.value = .str path ∧
      r = (.test (spaced [Dialect.binary (s.view.refPath c.property) "#>"
        (.litString (Dialect.pathLiteral (JsonPath.segments path))), key .isNotNull])
        (c.negated ^^ negate), []) ∧
      (literalElements? (.litString (Dialect.pathLiteral (JsonPath.segments path))) =
        some ((JsonPath.segments path).map some) ↔
          ∀ segment ∈ JsonPath.segments path, PlainElement segment) ∧
      ∀ (m : Nat) (d : Condition) (negate' : Bool) (r' : Bound Pred) (v : Value),
        d.operator = .jsonValueEq → JsonPath.operand? d.value = some (path, v) →
        JsonPath.segments path ≠ [] → condition .postgres s m d negate' = .ok r' →
        ∃ fragment, r'.2 = [⟨fragment, "json"⟩] ∧
          ∀ ks, Value.atSegments? ks fragment = some v ↔ ks = JsonPath.segments path := by
  obtain ⟨path, hpath, hr⟩ := condition_jsonPathExists hop h
  refine ⟨path, hpath, hr, literalElements?_pathLiteral _, ?_⟩
  intro m d negate' r' v hop' hvalue hsegments h'
  refine ⟨_, condition_jsonValueEq hop' hvalue h', fun ks => ?_⟩
  rw [fragment_of_segments hsegments]
  exact atSegments?_wrap

end

/-! ## A key with a comma -/

def metaDocs : Scope :=
  let entity : Entity := ⟨"Doc", .entity, some "docs",
    [("id", .ofType (.scalar "long")), ("meta", .ofType (.scalar "json"))], []⟩
  ⟨⟨[("Doc", entity)], []⟩, entity, ⟨"core", [], none⟩⟩

/-- The test looks at `b` inside of `a`, not at `a,b`. -/
theorem metaDocs_comma_splits :
    ∃ r, condition .postgres metaDocs 0 (.of "meta" .jsonPathExists (.str "a,b")) false = .ok r ∧
      r.1.tokens.text = "meta #> '\x7ba,b\x7d' IS NOT NULL" ∧
      literalElements? (.litString "\x7ba,b\x7d") = some [some "a", some "b"] ∧
      JsonPath.segments "a,b" = ["a,b"] ∧
      ¬∀ segment ∈ JsonPath.segments "a,b", PlainElement segment := by
  have h : condition .postgres metaDocs 0 (.of "meta" .jsonPathExists (.str "a,b")) false = .ok _ :=
    rfl
  refine ⟨_, h, by decide +kernel, by decide +kernel, by decide +kernel, fun hplain => ?_⟩
  obtain ⟨path, hpath, -, hread, -⟩ := path_literal_names_segments rfl h
  cases hpath
  exact absurd (hread.mpr hplain) (by decide +kernel)

end Polystore.Sql
