import Polystore.Proofs.Text.Trimming

/-! # Words of a text

A word stands where nothing but blanks or an end of the text is next to it. Trimming the text takes
no word away, and letter case is changed within the words. -/

namespace Polystore.Text
set_option autoImplicit false

/-! ## Places in a text -/

/-- Between `before` and `after` stands `w`, and on each side nothing or a character that keeps it
apart. -/
structure Stands (apart : Char → Bool) (cs before w after : List Char) : Prop where
  split : cs = before ++ w ++ after
  left : ∀ c ∈ before.getLast?, apart c = true
  right : ∀ c ∈ after.head?, apart c = true

section
variable {apart : Char → Bool} {cs before w after u : List Char} {c : Char}

/-- Inside a run without characters that keep apart, nothing stands before the place. -/
theorem eq_nil_of_left (hu : ∀ x ∈ u, apart x = false) (h : ∃ rest, u = before ++ rest)
    (hleft : ∀ x ∈ before.getLast?, apart x = true) : before = [] := by
  obtain ⟨rest, rfl⟩ := h
  cases hlast : before.getLast? with
  | none => exact List.getLast?_eq_none_iff.mp hlast
  | some x =>
    have hx := hu x (List.mem_append_left rest (List.mem_of_getLast? hlast))
    rw [hleft x hlast] at hx
    cases hx

theorem eq_nil_of_right (hu : ∀ x ∈ u, apart x = false) (h : ∃ rest, u = rest ++ after)
    (hright : ∀ x ∈ after.head?, apart x = true) : after = [] := by
  obtain ⟨rest, rfl⟩ := h
  cases after with
  | nil => rfl
  | cons x xs =>
    have hx := hu x (List.mem_append_right rest List.mem_cons_self)
    rw [hright x rfl] at hx
    cases hx

theorem Stands.eq_run (hu : ∀ x ∈ u, apart x = false) (h : Stands apart u before w after) :
    w = u := by
  obtain ⟨hsplit, hleft, hright⟩ := h
  obtain rfl := eq_nil_of_left hu ⟨w ++ after, by rw [hsplit, List.append_assoc]⟩ hleft
  obtain rfl := eq_nil_of_right hu ⟨w, hsplit⟩ hright
  rw [hsplit, List.nil_append, List.append_nil]

/-- What stands in a run with a character behind it that keeps apart is the run, or it stands in
the rest. -/
theorem Stands.cases_run (hw : ∀ x ∈ w, apart x = false) (hne : w ≠ [])
    (hu : ∀ x ∈ u, apart x = false) (hc : apart c = true)
    (h : Stands apart (u ++ c :: cs) before w after) :
    w = u ∨ ∃ front, Stands apart cs front w after := by
  obtain ⟨hsplit, hleft, hright⟩ := h
  rw [List.append_assoc] at hsplit
  -- What is in front of the place ends behind the run, or within it.
  rcases List.append_eq_append_iff.mp hsplit with ⟨as, rfl, hrest⟩ | ⟨bs, hrun, hrest⟩
  · cases as with
    | nil =>
      obtain ⟨x, xs, rfl⟩ := List.exists_cons_of_ne_nil hne
      cases hrest
      rw [hw c List.mem_cons_self] at hc
      cases hc
    | cons x front =>
      cases hrest
      refine .inr ⟨front, (List.append_assoc front w after).symm, fun x hx => hleft x ?_, hright⟩
      rw [List.getLast?_append, List.getLast?_cons, Option.mem_def.mp hx]
      rfl
  · obtain rfl := eq_nil_of_left hu ⟨bs, hrun⟩ hleft
    obtain rfl : u = bs := hrun
    rcases List.append_eq_append_iff.mp hrest with ⟨as, hrun, hafter⟩ | ⟨as, rfl, hafter⟩
    · have has : as = [] := by
        refine eq_nil_of_right hu ⟨w, hrun⟩ fun x hx => hright x ?_
        rw [hafter, List.head?_append, Option.mem_def.mp hx]
        rfl
      rw [hrun, has, List.append_nil]
      exact .inl rfl
    · cases as with
      | nil => exact .inl (List.append_nil u)
      | cons x xs =>
        cases hafter
        rw [hw c (List.mem_append_right u List.mem_cons_self)] at hc
        cases hc

theorem Stands.run (hc : apart c = true) : Stands apart (u ++ c :: cs) [] u (c :: cs) := by
  constructor
  · rfl
  · intro x hx
    cases hx
  · intro x hx
    cases hx
    exact hc

theorem Stands.behind_run (hc : apart c = true) (h : Stands apart cs before w after) :
    Stands apart (u ++ c :: cs) (u ++ c :: before) w after := by
  obtain ⟨rfl, hleft, hright⟩ := h
  refine ⟨by simp only [List.append_assoc, List.cons_append], fun x hx => ?_, hright⟩
  rw [List.getLast?_append, List.getLast?_cons] at hx
  cases hlast : before.getLast? with
  | none =>
    rw [hlast] at hx
    cases hx
    exact hc
  | some y =>
    rw [hlast] at hx
    cases hx
    exact hleft _ hlast

end

/-! ## Words -/

section
variable {w : List Char}

/-- The words are all that stands between blanks without a blank in it. -/
theorem mem_wordsFrom (hw : ∀ x ∈ w, isBlank x = false) (hne : w ≠ []) {word cs : List Char}
    (hword : ∀ x ∈ word, isBlank x = false) :
    w ∈ wordsFrom word cs ↔ ∃ before after, Stands isBlank (word.reverse ++ cs) before w after := by
  -- The scan carries the open word in reverse: it stands right before the rest.
  induction cs generalizing word with
  | nil =>
    have hrun : ∀ x ∈ word.reverse, isBlank x = false := fun x hx =>
      hword x (List.mem_reverse.mp hx)
    have hfirst : w ∈ wordsFrom word [] ↔ w = word.reverse := by
      unfold wordsFrom
      split
      · rename_i hempty
        rw [List.isEmpty_iff.mp hempty]
        exact iff_of_false List.not_mem_nil hne
      · exact List.mem_singleton
    rw [hfirst, List.append_nil]
    refine ⟨?_, fun ⟨before, after, h⟩ => h.eq_run hrun⟩
    rintro rfl
    refine ⟨[], [], (List.append_nil _).symm, ?_, ?_⟩ <;> exact fun x hx => by cases hx
  | cons c cs ih =>
    by_cases hc : isBlank c = true
    · have hrun : ∀ x ∈ word.reverse, isBlank x = false := fun x hx =>
        hword x (List.mem_reverse.mp hx)
      have hfirst : w ∈ wordsFrom word (c :: cs) ↔ w = word.reverse ∨ w ∈ wordsFrom [] cs := by
        rw [wordsFrom, if_pos hc]
        split
        · rename_i hempty
          rw [List.isEmpty_iff.mp hempty]
          exact (or_iff_right hne).symm
        · exact List.mem_cons
      have hrest : w ∈ wordsFrom [] cs ↔ ∃ before after, Stands isBlank cs before w after :=
        ih (List.forall_mem_nil _)
      rw [hfirst, hrest]
      constructor
      · rintro (rfl | ⟨before, after, h⟩)
        · exact ⟨_, _, .run hc⟩
        · exact ⟨_, _, h.behind_run hc⟩
      · rintro ⟨before, after, h⟩
        rcases h.cases_run hw hne hrun hc with hrun | ⟨front, hfront⟩
        · exact .inl hrun
        · exact .inr ⟨front, after, hfront⟩
    · have hopen : ∀ x ∈ c :: word, isBlank x = false :=
        List.forall_mem_cons.mpr ⟨Bool.not_eq_true _ ▸ hc, hword⟩
      have hrest := ih hopen
      rw [List.reverse_cons, List.append_assoc] at hrest
      rw [wordsFrom, if_neg hc]
      exact hrest

end

/-! ## Trimmed and lowered texts -/

theorem wordsFrom_blanks {bs : List Char} (h : ∀ c ∈ bs, isBlank c = true) :
    wordsFrom [] bs = [] := by
  induction bs with
  | nil => rfl
  | cons c bs ih =>
    obtain ⟨hc, hbs⟩ := List.forall_mem_cons.mp h
    rw [wordsFrom, if_pos hc, ih hbs]
    rfl

theorem wordsFrom_append_blanks (word cs : List Char) {bs : List Char}
    (h : ∀ c ∈ bs, isBlank c = true) : wordsFrom word (cs ++ bs) = wordsFrom word cs := by
  induction cs generalizing word with
  | nil =>
    cases bs with
    | nil => rfl
    | cons c bs =>
      obtain ⟨hc, hbs⟩ := List.forall_mem_cons.mp h
      have hclosed : wordsFrom word (c :: bs) = if word.isEmpty then [] else [word.reverse] := by
        rw [wordsFrom, if_pos hc, wordsFrom_blanks hbs]
      exact hclosed
  | cons c cs ih => rw [List.cons_append, wordsFrom, wordsFrom, ih, ih]

theorem wordsFrom_trimStart (cs : List Char) : wordsFrom [] (trimStartChars cs) = wordsFrom [] cs := by
  induction cs with
  | nil => rfl
  | cons c cs ih =>
    by_cases hc : isBlank c = true
    · rw [trimStartChars, List.dropWhile_cons, if_pos hc, wordsFrom, if_pos hc, ← ih]
      rfl
    · rw [trimStartChars, List.dropWhile_cons, if_neg hc]

theorem wordsFrom_trim (cs : List Char) : wordsFrom [] (trimChars cs) = wordsFrom [] cs := by
  have hends : trimStartChars cs =
      trimChars cs ++ ((trimStartChars cs).reverse.takeWhile isBlank).reverse := by
    rw [trimChars, trimEndChars, ← List.reverse_append, List.takeWhile_append_dropWhile,
      List.reverse_reverse]
  rw [← wordsFrom_trimStart cs, hends]
  refine (wordsFrom_append_blanks _ _ fun c hc => ?_).symm
  exact List.mem_takeWhile_imp (List.mem_reverse.mp hc)

theorem wordsFrom_toLower (word cs : List Char) :
    wordsFrom (word.map Char.toLower) (cs.map Char.toLower) =
      (wordsFrom word cs).map (·.map Char.toLower) := by
  have hflush : ∀ (word : List Char) (rest : List (List Char)),
      (if (word.map Char.toLower).isEmpty then rest.map (·.map Char.toLower)
        else (word.map Char.toLower).reverse :: rest.map (·.map Char.toLower)) =
      (if word.isEmpty then rest else word.reverse :: rest).map (·.map Char.toLower) := by
    intro word rest
    cases word with
    | nil => rfl
    | cons c word => exact congrArg (· :: _) List.map_reverse.symm
  induction cs generalizing word with
  | nil => exact hflush word []
  | cons c cs ih =>
    rw [List.map_cons, wordsFrom, wordsFrom, isBlank_toLower]
    by_cases hc : isBlank c = true
    · rw [if_pos hc, if_pos hc, ← hflush word, ← ih []]
      rfl
    · rw [if_neg hc, if_neg hc, ← ih (c :: word)]
      rfl

/-- A word in lower case stands in a text that is trimmed and lowered where it stands in the text,
in any letter case. -/
theorem mem_words_lowered {w : String} (hw : ∀ x ∈ w.toList, isBlank x = false) (hne : w ≠ "")
    (text : String) : w ∈ words (lowerAscii (trim text)) ↔
      ∃ before u after, u.map Char.toLower = w.toList ∧
        Stands isBlank text.toList before u after := by
  have hmem : w ∈ words (lowerAscii (trim text)) ↔
      ∃ u ∈ wordsFrom [] text.toList, u.map Char.toLower = w.toList := by
    have hlowered : wordsFrom [] (lowerAscii (trim text)).toList =
        (wordsFrom [] text.toList).map (·.map Char.toLower) := by
      rw [lowerAscii, String.toList_ofList, toList_trim, ← wordsFrom_trim text.toList]
      exact wordsFrom_toLower [] _
    rw [words, hlowered, List.map_map, List.mem_map]
    refine exists_congr fun u => and_congr_right fun _ => ?_
    exact String.ofList_eq
  have hstands : ∀ u : List Char, u.map Char.toLower = w.toList →
      (u ∈ wordsFrom [] text.toList ↔
        ∃ before after, Stands isBlank text.toList before u after) := by
    intro u hlower
    refine mem_wordsFrom (fun x hx => ?_) ?_ (List.forall_mem_nil _)
    · rw [← isBlank_toLower]
      exact hw _ (hlower ▸ List.mem_map_of_mem hx)
    · rintro rfl
      exact hne (String.toList_eq_nil_iff.mp hlower.symm)
  rw [hmem]
  constructor
  · rintro ⟨u, hu, hlower⟩
    obtain ⟨before, after, h⟩ := (hstands u hlower).mp hu
    exact ⟨before, u, after, hlower, h⟩
  · rintro ⟨before, u, after, hlower, h⟩
    exact ⟨u, (hstands u hlower).mpr ⟨before, after, h⟩, hlower⟩

end Polystore.Text
