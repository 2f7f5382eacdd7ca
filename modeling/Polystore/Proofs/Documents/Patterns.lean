import Mathlib.Tactic
import Polystore.Documents.Like

/-! # Patterns and their regular expressions

A pattern describes a whole text. A regular expression is looked for in a text, at any place of it.
The one that a pattern is written as is found in a text without line ends exactly if the text is
like the pattern: `%` takes any run of characters and `_` any one, and all else stands for itself,
also what is an operator in regular expressions. -/

namespace Polystore.Documents
set_option autoImplicit false

/-! ## Patterns -/

/-- `IsLike p s`: the text `s` as a whole is like the pattern `p`. -/
inductive IsLike : List Char → List Char → Prop
  | nil : IsLike [] []
  | run (u : List Char) {p s : List Char} (h : IsLike p s) : IsLike ('%' :: p) (u ++ s)
  | one (c : Char) {p s : List Char} (h : IsLike p s) : IsLike ('_' :: p) (c :: s)
  | same {c : Char} {p s : List Char} (hrun : c ≠ '%') (hone : c ≠ '_') (h : IsLike p s) :
    IsLike (c :: p) (c :: s)

/-! ## Regular expressions

The ones without groups, alternatives, classes and repetitions other than `*`. Their operators stand
for themselves only behind a backslash, and a text that uses another operator is not read. -/

namespace Regex

/-- What one character is compared with: itself, or any character that does not end a line. -/
inductive Test where
  | same (c : Char)
  | any
deriving DecidableEq

inductive Token where
  | test (t : Test)
  | star
  | start
  | stop
deriving DecidableEq

/-- One character, any number of them, or an end of the text. -/
inductive Piece where
  | one (t : Test)
  | many (t : Test)
  | start
  | stop
deriving DecidableEq

def operators : List Char :=
  ['\\', '.', '+', '*', '?', '(', ')', '|', '[', ']', '\x7b', '\x7d', '^', '$']

/-- A character without a backslash before it. -/
def token? (c : Char) : Option Token :=
  if c = '.' then some (.test .any)
  else if c = '*' then some .star
  else if c = '^' then some .start
  else if c = '$' then some .stop
  else if operators.contains c then none
  else some (.test (.same c))

/-- Behind a backslash letters and digits stand for classes and places, which are not read, and all
other characters for themselves. -/
def tokens? (escaped : Bool) : List Char → Option (List Token)
  | [] => if escaped then none else some []
  | c :: r =>
    if escaped then
      if c.isAlphanum then none else (tokens? false r).map (.test (.same c) :: ·)
    else if c = '\\' then tokens? true r
    else (token? c).bind fun t => (tokens? false r).map (t :: ·)

/-- A star repeats the character before it. -/
def pieces? : List Token → Option (List Piece)
  | [] => some []
  | .test t :: .star :: r => (pieces? r).map (.many t :: ·)
  | .test t :: r => (pieces? r).map (.one t :: ·)
  | .start :: r => (pieces? r).map (.start :: ·)
  | .stop :: r => (pieces? r).map (.stop :: ·)
  | .star :: _ => none

def read? (s : String) : Option (List Piece) := (tokens? false s.toList).bind pieces?

section
variable (lineEnd : Char → Bool)

def Test.Takes : Test → Char → Prop
  | same c, d => d = c
  | any, d => lineEnd d = false

/-- `Matches ps before after`: the pieces match the text `before ++ after` from the place between
the two up to some later place. -/
inductive Matches : List Piece → List Char → List Char → Prop
  | nil (before after : List Char) : Matches [] before after
  | one {t : Test} {c : Char} {ps : List Piece} {before after : List Char} (hc : t.Takes lineEnd c)
    (h : Matches ps (before ++ [c]) after) : Matches (.one t :: ps) before (c :: after)
  | many {t : Test} {u : List Char} {ps : List Piece} {before after : List Char}
    (hu : ∀ c ∈ u, t.Takes lineEnd c) (h : Matches ps (before ++ u) after) :
    Matches (.many t :: ps) before (u ++ after)
  | start {ps : List Piece} {after : List Char} (h : Matches ps [] after) :
    Matches (.start :: ps) [] after
  | stop {ps : List Piece} {before : List Char} (h : Matches ps before []) :
    Matches (.stop :: ps) before []

/-- The pieces match from some place of the text. -/
def Finds (ps : List Piece) (s : String) : Prop :=
  ∃ before after, s.toList = before ++ after ∧ Matches lineEnd ps before after

end

/-! ### Matching piece by piece -/

section
variable {lineEnd : Char → Bool} {t : Test} {ps : List Piece} {before s : List Char}

theorem matches_one : Matches lineEnd (.one t :: ps) before s ↔
    ∃ c after, s = c :: after ∧ t.Takes lineEnd c ∧ Matches lineEnd ps (before ++ [c]) after := by
  constructor
  · intro h
    cases h with
    | one hc h => exact ⟨_, _, rfl, hc, h⟩
  · rintro ⟨c, after, rfl, hc, h⟩
    exact .one hc h

theorem matches_many : Matches lineEnd (.many t :: ps) before s ↔
    ∃ u after, s = u ++ after ∧ (∀ c ∈ u, t.Takes lineEnd c) ∧
      Matches lineEnd ps (before ++ u) after := by
  constructor
  · intro h
    cases h with
    | many hu h => exact ⟨_, _, rfl, hu, h⟩
  · rintro ⟨u, after, rfl, hu, h⟩
    exact .many hu h

theorem matches_stop : Matches lineEnd [.stop] before s ↔ s = [] := by
  constructor
  · intro h
    cases h with
    | stop h => rfl
  · rintro rfl
    exact .stop (.nil _ _)

/-- From the start on there is one place to match. -/
theorem finds_start {text : String} :
    Finds lineEnd (.start :: ps) text ↔ Matches lineEnd ps [] text.toList := by
  constructor
  · rintro ⟨before, after, hsplit, h⟩
    cases h with
    | start h => rwa [hsplit]
  · intro h
    exact ⟨[], text.toList, rfl, .start h⟩

end

end Regex

/-! ## Reading what a pattern is written as -/

open Regex

def patternTokens (c : Char) : List Token :=
  if c = '%' then [.test .any, .star] else if c = '_' then [.test .any] else [.test (.same c)]

def patternPiece (c : Char) : Piece :=
  if c = '%' then .many .any else if c = '_' then .one .any else .one (.same c)

section
variable {c : Char} {r : List Char}

/-- A character that is no wildcard is read as itself, with a backslash or without. -/
theorem tokens?_escapedChar :
    tokens? false (escapedChar c ++ r) = (tokens? false r).map (.test (.same c) :: ·) := by
  unfold escapedChar
  by_cases hspecial : regexSpecial.contains c = true
  · have hsymbols : regexSpecial.all (fun c => !c.isAlphanum) = true := by decide
    have hsymbol : c.isAlphanum = false := by
      simpa using List.all_eq_true.mp hsymbols c (List.contains_iff_mem.mp hspecial)
    rw [if_pos hspecial]
    simp [tokens?, hsymbol]
  · have hoperators : operators ⊆ regexSpecial := by decide
    have hplain : c ∉ operators := fun hc =>
      hspecial (List.contains_iff_mem.mpr (hoperators hc))
    have htoken : token? c = some (.test (.same c)) := by
      simp only [operators, List.mem_cons, not_or] at hplain
      simp [token?, operators, hplain]
    have hslash : c ≠ '\\' := by
      rintro rfl
      exact hplain List.mem_cons_self
    rw [if_neg hspecial]
    simp [tokens?, hslash, htoken]

theorem tokens?_patternChar :
    tokens? false (patternChar c ++ r) = (tokens? false r).map (patternTokens c ++ ·) := by
  unfold patternChar patternTokens
  by_cases hrun : c = '%'
  · rw [if_pos hrun, if_pos hrun]
    simp [tokens?, token?, Option.map_map, Function.comp_def]
  · by_cases hone : c = '_'
    · rw [if_neg hrun, if_neg hrun, if_pos hone, if_pos hone]
      simp [tokens?, token?]
    · rw [if_neg hrun, if_neg hrun, if_neg hone, if_neg hone]
      exact tokens?_escapedChar

theorem tokens?_likeRegex (p : String) : tokens? false (likeRegex p).toList =
    some (.start :: (p.toList.flatMap patternTokens ++ [.stop])) := by
  have hbody (cs : List Char) : tokens? false (cs.flatMap patternChar ++ ['$']) =
      some (cs.flatMap patternTokens ++ [.stop]) := by
    induction cs with
    | nil => decide
    | cons c cs ih =>
      rw [List.flatMap_cons, List.append_assoc, tokens?_patternChar, ih, List.flatMap_cons,
        List.append_assoc]
      rfl
  rw [likeRegex, String.toList_ofList, List.append_assoc, List.singleton_append, tokens?]
  simp [token?, hbody]

/-- No wildcard is followed by a star of its pattern: a star is written with a backslash. -/
theorem pieces?_patternTokens {ts : List Token} (h : ts.head? ≠ some .star) :
    pieces? (patternTokens c ++ ts) = (pieces? ts).map (patternPiece c :: ·) := by
  have hone (t : Test) : pieces? (.test t :: ts) = (pieces? ts).map (.one t :: ·) := by
    cases ts with
    | nil => rfl
    | cons t' ts =>
      cases t' with
      | star => exact absurd rfl h
      | _ => rfl
  unfold patternTokens patternPiece
  split
  · rfl
  · split
    · exact hone .any
    · exact hone (.same c)

theorem pieces?_pattern (cs : List Char) :
    pieces? (cs.flatMap patternTokens ++ [.stop]) = some (cs.map patternPiece ++ [.stop]) := by
  have hhead (cs : List Char) :
      (cs.flatMap patternTokens ++ [Token.stop]).head? ≠ some .star := by
    cases cs with
    | nil => decide
    | cons c cs =>
      rw [List.flatMap_cons]
      unfold patternTokens
      split_ifs <;> simp
  induction cs with
  | nil => rfl
  | cons c cs ih =>
    rw [List.flatMap_cons, List.append_assoc, pieces?_patternTokens (hhead cs), ih]
    rfl

theorem read?_likeRegex (p : String) :
    read? (likeRegex p) = some (.start :: (p.toList.map patternPiece ++ [.stop])) := by
  rw [read?, tokens?_likeRegex, Option.bind_some, pieces?, pieces?_pattern]
  rfl

end

/-! ## Finding it -/

section
variable {c : Char} {p s : List Char}

theorem isLike_nil : IsLike [] s ↔ s = [] := by
  constructor
  · intro h
    cases h
    rfl
  · rintro rfl
    exact .nil

theorem isLike_run : IsLike ('%' :: p) s ↔ ∃ u r, s = u ++ r ∧ IsLike p r := by
  constructor
  · intro h
    cases h with
    | run u h => exact ⟨u, _, rfl, h⟩
    | same hrun hone h => exact absurd rfl hrun
  · rintro ⟨u, r, rfl, h⟩
    exact .run u h

theorem isLike_one : IsLike ('_' :: p) s ↔ ∃ c r, s = c :: r ∧ IsLike p r := by
  constructor
  · intro h
    cases h with
    | one c h => exact ⟨c, _, rfl, h⟩
    | same hrun hone h => exact absurd rfl hone
  · rintro ⟨c, r, rfl, h⟩
    exact .one c h

theorem isLike_same (hrun : c ≠ '%') (hone : c ≠ '_') :
    IsLike (c :: p) s ↔ ∃ r, s = c :: r ∧ IsLike p r := by
  constructor
  · intro h
    cases h with
    | run u h => exact absurd rfl hrun
    | one d h => exact absurd rfl hone
    | same hrun hone h => exact ⟨_, rfl, h⟩
  · rintro ⟨r, rfl, h⟩
    exact .same hrun hone h

/-- What stands before the place does not matter. -/
theorem matches_pattern {lineEnd : Char → Bool} {before : List Char}
    (hs : ∀ c ∈ s, lineEnd c = false) :
    Matches lineEnd (p.map patternPiece ++ [.stop]) before s ↔ IsLike p s := by
  induction p generalizing before s with
  | nil => exact matches_stop.trans isLike_nil.symm
  | cons c p ih =>
    rw [List.map_cons, List.cons_append, patternPiece]
    by_cases hrun : c = '%'
    · rw [if_pos hrun, hrun, matches_many, isLike_run]
      constructor
      · rintro ⟨u, r, rfl, -, h⟩
        exact ⟨u, r, rfl, (ih fun c hc => hs c (List.mem_append_right u hc)).mp h⟩
      · rintro ⟨u, r, rfl, h⟩
        exact ⟨u, r, rfl, fun c hc => hs c (List.mem_append_left r hc),
          (ih fun c hc => hs c (List.mem_append_right u hc)).mpr h⟩
    · by_cases hone : c = '_'
      · rw [if_neg hrun, if_pos hone, hone, matches_one, isLike_one]
        constructor
        · rintro ⟨d, r, rfl, -, h⟩
          exact ⟨d, r, rfl, (ih fun c hc => hs c (List.mem_cons_of_mem d hc)).mp h⟩
        · rintro ⟨d, r, rfl, h⟩
          exact ⟨d, r, rfl, hs d List.mem_cons_self,
            (ih fun c hc => hs c (List.mem_cons_of_mem d hc)).mpr h⟩
      · rw [if_neg hrun, if_neg hone, matches_one, isLike_same hrun hone]
        constructor
        · rintro ⟨d, r, rfl, rfl, h⟩
          exact ⟨r, rfl, (ih fun c hc => hs c (List.mem_cons_of_mem d hc)).mp h⟩
        · rintro ⟨r, rfl, h⟩
          exact ⟨c, r, rfl, rfl, (ih fun d hd => hs d (List.mem_cons_of_mem c hd)).mpr h⟩

end

/-- The text that a pattern is written as is a regular expression, whatever characters the pattern
has, and it is found in exactly those texts without line ends that are like the pattern. -/
theorem patterns_found (p : String) :
    ∃ ps, read? (likeRegex p) = some ps ∧
      ∀ (lineEnd : Char → Bool) (s : String), (∀ c ∈ s.toList, lineEnd c = false) →
        (Finds lineEnd ps s ↔ IsLike p.toList s.toList) :=
  ⟨_, read?_likeRegex p, fun _ _ hs => finds_start.trans (matches_pattern hs)⟩

/-- Operators of regular expressions stand for themselves beside both wildcards. -/
theorem netPrice_found :
    let newline := fun c => c == '\n'
    (∀ c ∈ "1.5€\\(net)".toList, newline c = false) ∧
      ∃ ps, read? (likeRegex "1.5_\\(%)") = some ps ∧ Finds newline ps "1.5€\\(net)" := by
  intro newline
  have hline : ∀ c ∈ "1.5€\\(net)".toList, newline c = false := by simp [newline]
  have hlike : IsLike "1.5_\\(%)".toList "1.5€\\(net)".toList := by
    have hparens : IsLike ['\\', '(', '%', ')'] ['\\', '(', 'n', 'e', 't', ')'] :=
      .same (by decide) (by decide) <| .same (by decide) (by decide) <| .run ['n', 'e', 't'] <|
        .same (by decide) (by decide) .nil
    exact .same (by decide) (by decide) <| .same (by decide) (by decide) <|
      .same (by decide) (by decide) <| .one '€' hparens
  obtain ⟨ps, hread, hfound⟩ := patterns_found "1.5_\\(%)"
  exact ⟨hline, ps, hread, (hfound newline _ hline).mpr hlike⟩

end Polystore.Documents
