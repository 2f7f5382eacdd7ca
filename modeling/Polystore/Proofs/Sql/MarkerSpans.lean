import Mathlib
import Polystore.Proofs.Sql.Scanning

/-! # Where markers stand

The scanner goes through a text once and keeps nothing but its place and whether it is inside a
literal. Here its answer is compared with a description of the whole text: a marker is a colon
outside literals that is left over when the colons of its run are taken in pairs, with the longest
name behind it. What replaces the markers changes nothing else and leaves none. -/

namespace Polystore.Sql
set_option autoImplicit false

open Text (size8)

/-! ## Places of a text -/

/-- How many colons a text ends in. -/
def colonRun (cs : List Char) : Nat := (cs.reverse.takeWhile (· == ':')).length

/-- A colon with a name stands for a parameter between what is before and behind them: the colon is
outside literals, the run of colons that it ends is odd, and the name is the longest there. -/
structure MarkerAt (before name after : List Char) : Prop where
  outside : before.count '\'' % 2 = 0
  odd : colonRun (before ++ [':']) % 2 = 1
  named : ∃ d r, name = d :: r ∧ isNameStart d = true ∧ ∀ c ∈ r, isNamePart c = true
  longest : ∀ c r, after = c :: r → isNamePart c = false

/-- The marker of a name behind some text, with its offsets in bytes. -/
def markerBehind (before name : List Char) : Marker :=
  ⟨String.ofList name, size8 before, size8 (before ++ ':' :: name)⟩

/-- The marker stands in what follows a text. -/
def StandsBehind (before cs : List Char) (m : Marker) : Prop :=
  ∃ gap name after, cs = gap ++ ':' :: name ++ after ∧ MarkerAt (before ++ gap) name after ∧
    m = markerBehind (before ++ gap) name

/-- One text is the other with each of the markers, which begin behind a position, replaced by the
placeholder of its number. What is between the markers stays. -/
inductive Replaced (placeholder : Nat → List Char) :
    Nat → Nat → List Marker → List Char → List Char → Prop
  | rest (n pos : Nat) (cs : List Char) : Replaced placeholder n pos [] cs cs
  | marker {n pos : Nat} {ms : List Marker} {cs out : List Char} (gap name : List Char)
    (h : Replaced placeholder (n + 1) (pos + size8 (gap ++ ':' :: name)) ms cs out) :
    Replaced placeholder n pos
      (⟨String.ofList name, pos + size8 gap, pos + size8 (gap ++ ':' :: name)⟩ :: ms)
      (gap ++ ':' :: name ++ cs) (gap ++ placeholder n ++ out)

section
variable {before name after cs : List Char} {c : Char} {m : Marker}

theorem size8_append (cs ds : List Char) : size8 (cs ++ ds) = size8 cs + size8 ds := by
  induction cs with
  | nil => simp [size8]
  | cons c cs ih => simp only [List.cons_append, size8, ih, Nat.add_assoc]

theorem size8_singleton (c : Char) : size8 [c] = c.utf8Size := by simp [size8]

theorem colonRun_colon (cs : List Char) : colonRun (cs ++ [':']) = colonRun cs + 1 := by
  simp [colonRun]

theorem colonRun_of_ne (h : c ≠ ':') (cs : List Char) : colonRun (cs ++ [c]) = 0 := by
  simp [colonRun, h]

/-- The name of a marker is read off the text behind its colon. -/
theorem MarkerAt.name_eq (h : MarkerAt before name after) : ∃ d r, name ++ after = d :: r ∧
    isNameStart d = true ∧ name = d :: r.takeWhile isNamePart ∧
      after = r.dropWhile isNamePart := by
  obtain ⟨d, u, rfl, hd, hu⟩ := h.named
  have hbreak : after.takeWhile isNamePart = [] ∧ after.dropWhile isNamePart = after := by
    cases hafter : after with
    | nil => exact ⟨rfl, rfl⟩
    | cons c r =>
      have hc : ¬isNamePart c = true := by simp [h.longest c r hafter]
      exact ⟨List.takeWhile_cons_of_neg hc, List.dropWhile_cons_of_neg hc⟩
  refine ⟨d, u ++ after, rfl, hd, ?_, ?_⟩
  · rw [List.takeWhile_append_of_pos hu, hbreak.1, List.append_nil]
  · rw [List.dropWhile_append_of_pos hu, hbreak.2]

/-- A marker begins with the first character, or it stands behind that. -/
theorem standsBehind_cons : StandsBehind before (c :: cs) m ↔
    (c = ':' ∧ ∃ name after, cs = name ++ after ∧ MarkerAt before name after ∧
      m = markerBehind before name) ∨ StandsBehind (before ++ [c]) cs m := by
  constructor
  · rintro ⟨gap, name, after, hcs, hat, hm⟩
    cases gap with
    | nil =>
      rw [List.append_nil] at hat hm
      obtain ⟨rfl, rfl⟩ := List.cons.inj hcs
      exact .inl ⟨rfl, name, after, rfl, hat, hm⟩
    | cons d gap =>
      obtain ⟨rfl, rfl⟩ := List.cons.inj hcs
      rw [List.append_cons] at hat hm
      exact .inr ⟨gap, name, after, rfl, hat, hm⟩
  · rintro (⟨rfl, name, after, rfl, hat, hm⟩ | ⟨gap, name, after, rfl, hat, hm⟩)
    · exact ⟨[], name, after, rfl, by rwa [List.append_nil], by rwa [List.append_nil]⟩
    · rw [← List.append_cons] at hat hm
      exact ⟨c :: gap, name, after, rfl, hat, hm⟩

theorem standsBehind_of_ne (h : c ≠ ':') :
    StandsBehind before (c :: cs) m ↔ StandsBehind (before ++ [c]) cs m := by
  rw [standsBehind_cons]
  exact or_iff_right fun hc => h hc.1

theorem standsBehind_of_not_at (h : ∀ name after, cs = name ++ after → ¬MarkerAt before name after) :
    StandsBehind before (c :: cs) m ↔ StandsBehind (before ++ [c]) cs m := by
  rw [standsBehind_cons]
  refine or_iff_right ?_
  rintro ⟨-, name, after, hcs, hat, -⟩
  exact h name after hcs hat

theorem standsBehind_name {u : List Char} (h : ∀ c ∈ u, isNamePart c = true) :
    StandsBehind before (u ++ cs) m ↔ StandsBehind (before ++ u) cs m := by
  induction u generalizing before with
  | nil => rw [List.nil_append, List.append_nil]
  | cons c u ih =>
    obtain ⟨hc, hu⟩ := List.forall_mem_cons.mp h
    have hne : c ≠ ':' := isNamePart_ne hc (by decide)
    rw [List.cons_append, standsBehind_of_ne hne, ih hu, ← List.append_cons]

theorem not_standsBehind_nil : ¬StandsBehind before [] m := by
  rintro ⟨gap, name, after, hcs, -⟩
  simp at hcs

/-! ## What the scanner keeps -/

/-- What the scanner knows of the text behind it: whether a literal is open, and that a colon at
which it looks outside of literals is not the second one of a pair. -/
structure Ready (quoted : Bool) (before cs : List Char) : Prop where
  literal : quotedBehind false before = quoted
  unpaired : quoted = false → ∀ r, cs = ':' :: r → colonRun before % 2 = 0

theorem quotedBehind_concat (before : List Char) (c : Char) :
    quotedBehind false (before ++ [c]) = (quotedBehind false before ^^ (c == '\'')) := by
  simp [quotedBehind, List.foldl_append]

theorem even_of_outside : quotedBehind false before = false ↔ before.count '\'' % 2 = 0 := by
  rw [quotedBehind_eq]
  simp

/-- A quote opens or closes a literal. -/
theorem Ready.quote {quoted : Bool} (h : Ready quoted before ('\'' :: cs)) :
    Ready (!quoted) (before ++ ['\'']) cs where
  literal := by
    rw [quotedBehind_concat, h.literal]
    exact Bool.xor_true quoted
  unpaired _ _ _ := by rw [colonRun_of_ne (by decide)]

theorem Ready.plain {quoted : Bool} (h : Ready quoted before (c :: cs)) (hc : c ≠ '\'')
    (hcolon : quoted = false → c ≠ ':') : Ready quoted (before ++ [c]) cs where
  literal := by rw [quotedBehind_concat, h.literal, beq_eq_false_iff_ne.mpr hc, Bool.xor_false]
  unpaired hq _ _ := by rw [colonRun_of_ne (hcolon hq)]

/-- Behind a single colon the next character is no colon, whatever it is otherwise. -/
theorem Ready.colon {d : Char} (h : Ready false before (':' :: d :: cs)) (hd : d ≠ ':') :
    Ready false (before ++ [':']) (d :: cs) where
  literal := by rw [quotedBehind_concat, h.literal]; rfl
  unpaired _ _ hr := absurd (List.cons.inj hr).1 hd

theorem Ready.pair (h : Ready false before (':' :: ':' :: cs)) :
    Ready false (before ++ [':'] ++ [':']) cs where
  literal := by rw [quotedBehind_concat, quotedBehind_concat, h.literal]; rfl
  unpaired _ _ _ := by
    have heven := h.unpaired rfl _ rfl
    rw [colonRun_colon, colonRun_colon]
    omega

theorem Ready.nameParts {u : List Char} (h : Ready false before (u ++ cs)) (hne : u ≠ [])
    (hu : ∀ c ∈ u, isNamePart c = true) : Ready false (before ++ u) cs := by
  induction u generalizing before with
  | nil => exact absurd rfl hne
  | cons c u ih =>
    obtain ⟨hc, hu⟩ := List.forall_mem_cons.mp hu
    have hcolon : c ≠ ':' := isNamePart_ne hc (by decide)
    have hnext : Ready false (before ++ [c]) (u ++ cs) :=
      h.plain (isNamePart_ne hc (by decide)) fun _ => hcolon
    rw [List.append_cons]
    cases u with
    | nil => rwa [List.append_nil]
    | cons d u => exact ih hnext (List.cons_ne_nil d u) hu

/-! ## What is found -/

theorem not_at_of_head (h : ∀ d r, cs = d :: r → isNameStart d = false)
    (hcs : cs = name ++ after) : ¬MarkerAt before name after := by
  intro hat
  obtain ⟨d, r, hd, hstart, -⟩ := hat.name_eq
  rw [h d r (hcs.trans hd)] at hstart
  exact Bool.false_ne_true hstart

/-- The colon in front of a name is a marker if the scanner looks at it outside of literals. -/
theorem Ready.markerAt {d : Char} {r : List Char} (h : Ready false before (':' :: d :: r))
    (hd : isNameStart d = true) :
    MarkerAt before (d :: r.takeWhile isNamePart) (r.dropWhile isNamePart) where
  outside := even_of_outside.mp h.literal
  odd := by
    have heven := h.unpaired rfl _ rfl
    rw [colonRun_colon]
    omega
  named := ⟨d, _, rfl, hd, fun _ hc => (List.mem_takeWhile_imp hc)⟩
  longest c s hs := by
    have hhead := List.head?_dropWhile_not isNamePart r
    rw [hs] at hhead
    simpa using hhead

theorem standsBehind_marker {d : Char} {r : List Char} (h : Ready false before (':' :: d :: r))
    (hd : isNameStart d = true) : StandsBehind before (':' :: d :: r) m ↔
      m = markerBehind before (d :: r.takeWhile isNamePart) ∨
        StandsBehind (before ++ ':' :: d :: r.takeWhile isNamePart) (r.dropWhile isNamePart) m := by
  have hname : ∀ c ∈ d :: r.takeWhile isNamePart, isNamePart c = true :=
    List.forall_mem_cons.mpr ⟨isNamePart_of_start hd, fun c hc => List.mem_takeWhile_imp hc⟩
  have hcut : d :: r = (d :: r.takeWhile isNamePart) ++ r.dropWhile isNamePart := by
    rw [List.cons_append, List.takeWhile_append_dropWhile]
  rw [standsBehind_cons]
  refine or_congr ⟨?_, ?_⟩ ?_
  · rintro ⟨-, name, after, hcs, hat, rfl⟩
    obtain ⟨e, s, he, -, hname, -⟩ := hat.name_eq
    obtain ⟨rfl, rfl⟩ := List.cons.inj (hcs.trans he)
    rw [hname]
  · rintro rfl
    exact ⟨rfl, _, _, hcut, h.markerAt hd, rfl⟩
  · rw [hcut, standsBehind_name hname, ← List.append_cons]

theorem mem_markersFrom_char {ps : List Piece}
    (h : m ∈ markersFrom (size8 (before ++ [c])) ps ↔ StandsBehind (before ++ [c]) cs m)
    (hskip : StandsBehind before (c :: cs) m ↔ StandsBehind (before ++ [c]) cs m) :
    m ∈ markersFrom (size8 before) (.char c :: ps) ↔ StandsBehind before (c :: cs) m := by
  rw [hskip, ← h, size8_append, size8_singleton]
  rfl

/-- The scanner finds the markers that stand in the text before it, whatever is behind it. -/
theorem mem_markersFrom {quoted : Bool} (h : Ready quoted before cs) :
    m ∈ markersFrom (size8 before) (pieces quoted cs) ↔ StandsBehind before cs m := by
  fun_induction pieces quoted cs generalizing before with
  | case1 quoted => exact iff_of_false List.not_mem_nil not_standsBehind_nil
  | case2 quoted r ih =>
    exact mem_markersFrom_char (ih h.quote) (standsBehind_of_ne (by decide))
  | case3 quoted c hq hc =>
    obtain ⟨rfl, rfl⟩ := hc
    refine mem_markersFrom_char (iff_of_false List.not_mem_nil not_standsBehind_nil) ?_
    refine standsBehind_of_not_at fun _ _ => not_at_of_head fun d s hs => ?_
    cases hs
  | case4 quoted c hq hc r ih =>
    obtain ⟨rfl, rfl⟩ := hc
    refine mem_markersFrom_char (mem_markersFrom_char (ih h.pair) ?_) ?_
    · -- The second colon of a pair makes the run even again.
      refine standsBehind_of_not_at fun name after _ hat => ?_
      have heven := h.unpaired rfl _ rfl
      have hodd := hat.odd
      rw [colonRun_colon, colonRun_colon] at hodd
      omega
    · refine standsBehind_of_not_at fun _ _ => not_at_of_head fun d s hs => ?_
      rw [← (List.cons.inj hs).1]
      rfl
  | case5 quoted c hq hc d r hd hs ih =>
    obtain ⟨rfl, rfl⟩ := hc
    have hname : ∀ c ∈ d :: r.takeWhile isNamePart, isNamePart c = true :=
      List.forall_mem_cons.mpr ⟨isNamePart_of_start hs, fun c hc => List.mem_takeWhile_imp hc⟩
    have hready : Ready false (before ++ ':' :: d :: r.takeWhile isNamePart)
        (r.dropWhile isNamePart) := by
      rw [List.append_cons]
      refine Ready.nameParts ?_ (List.cons_ne_nil _ _) hname
      rw [List.cons_append, List.takeWhile_append_dropWhile]
      exact h.colon hd
    rw [standsBehind_marker h hs, ← ih hready, markersFrom, List.mem_cons, markerBehind,
      size8_append]
  | case6 quoted c hq hc d r hd hs ih =>
    obtain ⟨rfl, rfl⟩ := hc
    refine mem_markersFrom_char (ih (h.colon hd)) ?_
    refine standsBehind_of_not_at fun _ _ => not_at_of_head fun e s he => ?_
    rw [← (List.cons.inj he).1]
    exact Bool.eq_false_iff.mpr hs
  | case7 quoted c r hq hc ih =>
    have hcolon : quoted = false → c ≠ ':' := fun hquoted he => hc ⟨he, hquoted⟩
    refine mem_markersFrom_char (ih (h.plain hq hcolon)) ?_
    by_cases hc : c = ':'
    · -- A colon that is passed over like any other character is inside a literal.
      refine standsBehind_of_not_at fun name after _ hat => ?_
      have hquoted : quoted = false := h.literal.symm.trans (even_of_outside.mpr hat.outside)
      exact hcolon hquoted hc
    · exact standsBehind_of_ne hc

theorem mem_scan {sql : String} : m ∈ scan sql ↔ StandsBehind [] sql.toList m := by
  have hready : Ready false [] sql.toList := ⟨rfl, fun _ _ _ => rfl⟩
  exact mem_markersFrom hready

end

/-! ## Order -/

theorem le_start_of_mem {pos : Nat} {ps : List Piece} {m : Marker} (h : m ∈ markersFrom pos ps) :
    pos ≤ m.start := by
  induction ps generalizing pos with
  | nil => cases h
  | cons p ps ih =>
    cases p with
    | char c =>
      have hle := ih h
      omega
    | marker name =>
      rcases List.mem_cons.mp h with rfl | h
      · exact Nat.le_refl pos
      · have hle := ih h
        omega

/-- Markers are found from left to right, each behind the end of the one before. -/
theorem pairwise_markersFrom (pos : Nat) (ps : List Piece) :
    (markersFrom pos ps).Pairwise fun m m' => m.stop ≤ m'.start := by
  induction ps generalizing pos with
  | nil => exact .nil
  | cons p ps ih =>
    cases p with
    | char c => exact ih _
    | marker name => exact .cons (fun m hm => le_start_of_mem hm) (ih _)

/-! ## Replaced markers -/

section
variable {placeholder : Nat → List Char} {n : Nat}

theorem flatMap_pieces (quoted : Bool) (cs : List Char) :
    (pieces quoted cs).flatMap Piece.chars = cs := by
  fun_induction pieces quoted cs with
  | case1 quoted => rfl
  | case2 quoted r ih => exact congrArg ('\'' :: ·) ih
  | case3 quoted c hq hc => rfl
  | case4 quoted c hq hc r ih => exact congrArg (fun cs => c :: ':' :: cs) ih
  | case5 quoted c hq hc d r hd hs ih =>
    rw [hc.1, List.flatMap_cons, ih, Piece.chars, List.cons_append, List.cons_append,
      List.takeWhile_append_dropWhile]
  | case6 quoted c hq hc d r hd hs ih => exact congrArg (c :: ·) ih
  | case7 quoted c r hq hc ih => exact congrArg (c :: ·) ih

/-- A character in front of a text belongs to the gap before its first marker. -/
theorem Replaced.char {pos : Nat} {ms : List Marker} {cs out : List Char} (c : Char)
    (h : Replaced placeholder n (pos + c.utf8Size) ms cs out) :
    Replaced placeholder n pos ms (c :: cs) (c :: out) := by
  cases h with
  | rest => exact .rest n pos (c :: cs)
  | @marker _ _ ms cs out gap name h =>
    have hsize : ∀ ds, pos + c.utf8Size + size8 ds = pos + size8 (c :: ds) := fun ds => by
      rw [size8, Nat.add_assoc]
    rw [hsize] at h
    rw [hsize, hsize]
    exact .marker (c :: gap) name h

theorem replaced_numberFrom (pos : Nat) (ps : List Piece) :
    Replaced placeholder n pos (markersFrom pos ps) (ps.flatMap Piece.chars)
      (numberFrom placeholder n ps) := by
  induction ps generalizing n pos with
  | nil => exact .rest n pos []
  | cons p ps ih =>
    cases p with
    | char c => exact (ih _).char c
    | marker name => exact .marker [] name (ih _)

/-- The pieces of a text without markers are its characters. -/
theorem numberFrom_of_found_nil {ps : List Piece} (h : ps.filterMap Piece.name? = []) :
    numberFrom placeholder n ps = ps.flatMap Piece.chars := by
  induction ps with
  | nil => rfl
  | cons p ps ih =>
    cases p with
    | char c => exact congrArg (c :: ·) (ih h)
    | marker name => cases h

theorem pieces_head {d : Char} (hd : d ≠ ':') (quoted : Bool) (r : List Char) :
    ∃ ps, pieces quoted (d :: r) = .char d :: ps := by
  by_cases hq : d = '\''
  · subst hq
    exact ⟨_, pieces_quote quoted r⟩
  · exact ⟨_, pieces_plain hq (fun h => hd h.1) r⟩

/-- A marker is replaced as a whole, so the colons that are left are those that are no markers, and
what stands behind them stays. -/
theorem found_numberFrom (hplain : ∀ k, (placeholder k).all isPlain = true) (quoted : Bool)
    (cs : List Char) : found quoted (numberFrom placeholder n (pieces quoted cs)) = [] := by
  fun_induction pieces quoted cs generalizing n with
  | case1 quoted => rw [numberFrom, found, pieces_nil]; rfl
  | case2 quoted r ih =>
    rw [numberFrom, found, pieces_quote]
    exact ih
  | case3 quoted c hq hc =>
    obtain ⟨rfl, rfl⟩ := hc
    have hnone : ∀ d s, ([] : List Char) = d :: s → d ≠ ':' ∧ isNameStart d = false := by
      intro d s hs
      cases hs
    rw [numberFrom, numberFrom, found, pieces_colon hnone, pieces_nil]
    rfl
  | case4 quoted c hq hc r ih =>
    obtain ⟨rfl, rfl⟩ := hc
    rw [numberFrom, numberFrom, found, pieces_colons]
    exact ih
  | case5 quoted c hq hc d r hd hs ih =>
    rw [numberFrom, found_plain (hplain n)]
    exact ih
  | case6 quoted c hq hc d r hd hs ih =>
    obtain ⟨rfl, rfl⟩ := hc
    obtain ⟨ps, hps⟩ := pieces_head hd false r
    have hrest := ih (n := n)
    rw [hps, numberFrom] at hrest
    rw [hps, numberFrom, numberFrom, found, pieces_colon]
    · exact hrest
    · intro e s he
      cases he
      exact ⟨hd, Bool.eq_false_iff.mpr hs⟩
  | case7 quoted c r hq hc ih =>
    rw [numberFrom, found, pieces_plain hq hc]
    exact ih

theorem placeholder_plain (d : Dialect) (k : Nat) : (d.placeholder k).all isPlain = true := by
  cases d with
  | ansi => rfl
  | postgres =>
    have hdigits : ∀ c ∈ Nat.toDigits 10 k, isPlain c = true := fun c hc =>
      isPlain_of_isNamePart (isNamePart_of_isDigit
        (Nat.isDigit_of_mem_toDigits (by decide) (by decide) hc))
    exact List.all_eq_true.mpr (List.forall_mem_cons.mpr ⟨by decide, hdigits⟩)

theorem found_numberMarkers (d : Dialect) (sql : String) :
    found false (numberMarkers d.placeholder sql).toList = [] := by
  rw [numberMarkers, String.toList_ofList]
  exact found_numberFrom (placeholder_plain d) false sql.toList

theorem numberMarkers_of_found_nil {sql : String} (h : found false sql.toList = []) :
    numberMarkers placeholder sql = sql := by
  rw [numberMarkers, numberFrom_of_found_nil h, flatMap_pieces, String.ofList_toList]

/-- The scanner finds exactly the markers of a text, from left to right. The text that is sent to a
store is the same text with each marker replaced by the placeholder of its number; no marker is left
in it, so replacing once more changes nothing. -/
theorem scan_finds_markers (sql : String) :
    (∀ m, m ∈ scan sql ↔ ∃ before name after, sql.toList = before ++ ':' :: name ++ after ∧
      MarkerAt before name after ∧ m = markerBehind before name) ∧
    (scan sql).Pairwise (fun m m' => m.stop ≤ m'.start) ∧
    (∀ placeholder,
      Replaced placeholder 1 0 (scan sql) sql.toList (numberMarkers placeholder sql).toList) ∧
    ∀ d : Dialect, scan (numberMarkers d.placeholder sql) = [] ∧ ∀ placeholder,
      numberMarkers placeholder (numberMarkers d.placeholder sql) =
        numberMarkers d.placeholder sql := by
  refine ⟨fun m => mem_scan, pairwise_markersFrom 0 _, fun placeholder => ?_, fun d => ⟨?_, ?_⟩⟩
  · have hreplaced := @replaced_numberFrom placeholder 1 0 (pieces false sql.toList)
    rw [flatMap_pieces] at hreplaced
    rw [numberMarkers, String.toList_ofList]
    exact hreplaced
  · apply List.eq_nil_of_length_eq_zero
    rw [scan_length, found_numberMarkers, List.length_nil]
  · exact fun placeholder => numberMarkers_of_found_nil (found_numberMarkers d sql)

end

end Polystore.Sql
