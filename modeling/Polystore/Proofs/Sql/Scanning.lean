import Mathlib.Data.List.TakeWhile
import Polystore.Sql.Compile

/-! # Scanning composed text

The scanner sees one flat text, the compiler writes it token by token. Scanned text may be cut
wherever the rest neither carries on a name nor a pair of colons; so what is found in the text of
a list of tokens is what is found in the tokens, one after the other. -/

namespace Polystore.Sql
set_option autoImplicit false

/-! ## Cutting text -/

/-- What follows neither belongs to a name that ends here nor makes a pair with a colon. -/
def Breaks (rest : List Char) : Prop := ∀ c r, rest = c :: r → c ≠ ':' ∧ isNamePart c = false

/-- Whether the scanner is inside a literal behind some text. -/
def quotedBehind (quoted : Bool) (cs : List Char) : Bool := cs.foldl (fun q c => q ^^ (c == '\'')) quoted

theorem breaks_nil : Breaks [] := nofun

theorem breaks_cons {c : Char} (hc : c ≠ ':') (hn : isNamePart c = false) (r : List Char) :
    Breaks (c :: r) := by
  intro d s h
  cases h
  exact ⟨hc, hn⟩

theorem isNamePart_of_start {c : Char} (h : isNameStart c = true) : isNamePart c = true := by
  rw [isNamePart, h, Bool.true_or]

theorem quotedBehind_cons {c : Char} (hc : c ≠ '\'') (quoted : Bool) (cs : List Char) :
    quotedBehind quoted (c :: cs) = quotedBehind quoted cs := by
  have h : (c == '\'') = false := beq_eq_false_iff_ne.mpr hc
  rw [quotedBehind, List.foldl_cons, h, Bool.xor_false]
  rfl

theorem quotedBehind_quote (quoted : Bool) (cs : List Char) :
    quotedBehind quoted ('\'' :: cs) = quotedBehind (!quoted) cs := by
  have h : (quoted ^^ ('\'' == '\'')) = !quoted := Bool.xor_true quoted
  rw [quotedBehind, List.foldl_cons, h]
  rfl

theorem isNamePart_ne {c d : Char} (h : isNamePart c = true) (hd : isNamePart d = false) : c ≠ d := by
  intro he
  rw [he, hd] at h
  cases h

theorem quotedBehind_dropName (quoted : Bool) (cs : List Char) :
    quotedBehind quoted (cs.dropWhile isNamePart) = quotedBehind quoted cs := by
  induction cs with
  | nil => rfl
  | cons c cs ih =>
    by_cases hc : isNamePart c = true
    · rw [List.dropWhile_cons_of_pos hc, ih, quotedBehind_cons (isNamePart_ne hc (by decide))]
    · rw [List.dropWhile_cons_of_neg hc]

theorem takeName_append {rest : List Char} (h : Breaks rest) (cs : List Char) :
    (cs ++ rest).takeWhile isNamePart = cs.takeWhile isNamePart := by
  induction cs with
  | nil =>
    cases rest with
    | nil => rfl
    | cons c r =>
      rw [List.nil_append, List.takeWhile_cons_of_neg]
      · rfl
      · rw [(h c r rfl).2]
        exact Bool.false_ne_true
  | cons c cs ih =>
    by_cases hc : isNamePart c = true
    · rw [List.cons_append, List.takeWhile_cons_of_pos hc, List.takeWhile_cons_of_pos hc, ih]
    · rw [List.cons_append, List.takeWhile_cons_of_neg hc, List.takeWhile_cons_of_neg hc]

theorem dropName_append {rest : List Char} (h : Breaks rest) (cs : List Char) :
    (cs ++ rest).dropWhile isNamePart = cs.dropWhile isNamePart ++ rest := by
  induction cs with
  | nil =>
    cases rest with
    | nil => rfl
    | cons c r =>
      rw [List.nil_append, List.dropWhile_cons_of_neg]
      · rfl
      · rw [(h c r rfl).2]
        exact Bool.false_ne_true
  | cons c cs ih =>
    by_cases hc : isNamePart c = true
    · rw [List.cons_append, List.dropWhile_cons_of_pos hc, List.dropWhile_cons_of_pos hc, ih]
    · rw [List.cons_append, List.dropWhile_cons_of_neg hc, List.dropWhile_cons_of_neg hc,
        List.cons_append]

/-! ## One character -/

theorem pieces_nil (quoted : Bool) : pieces quoted [] = [] := by rw [pieces]

theorem pieces_quote (quoted : Bool) (r : List Char) :
    pieces quoted ('\'' :: r) = .char '\'' :: pieces (!quoted) r := by
  rw [pieces.eq_def]
  exact if_pos rfl

theorem pieces_plain {c : Char} {quoted : Bool} (hq : c ≠ '\'') (hc : ¬ (c = ':' ∧ quoted = false))
    (r : List Char) : pieces quoted (c :: r) = .char c :: pieces quoted r := by
  rw [pieces.eq_def]
  simp only [if_neg hq, if_neg hc]

theorem pieces_colon {r : List Char} (h : ∀ d s, r = d :: s → d ≠ ':' ∧ isNameStart d = false) :
    pieces false (':' :: r) = .char ':' :: pieces false r := by
  rw [pieces.eq_def]
  cases r with
  | nil => simp [pieces_nil]
  | cons d s =>
    obtain ⟨hd, hn⟩ := h d s rfl
    simp [hd, hn]

theorem pieces_colons (r : List Char) :
    pieces false (':' :: ':' :: r) = .char ':' :: .char ':' :: pieces false r := by
  rw [pieces.eq_def]
  simp

theorem pieces_marker {d : Char} (h : isNameStart d = true) (r : List Char) :
    pieces false (':' :: d :: r) =
      .marker (d :: r.takeWhile isNamePart) :: pieces false (r.dropWhile isNamePart) := by
  have hd : d ≠ ':' := isNamePart_ne (isNamePart_of_start h) (by decide)
  rw [pieces.eq_def]
  simp [hd, h]

/-- Text may be cut in front of a break. -/
theorem pieces_append {rest : List Char} (h : Breaks rest) (quoted : Bool) (cs : List Char) :
    pieces quoted (cs ++ rest) = pieces quoted cs ++ pieces (quotedBehind quoted cs) rest := by
  fun_induction pieces quoted cs with
  | case1 quoted => rfl
  | case2 quoted r ih =>
    rw [List.cons_append, pieces_quote, ih, quotedBehind_quote]
    rfl
  | case3 quoted c hq hc =>
    obtain ⟨rfl, rfl⟩ := hc
    refine pieces_colon fun d s hr => ?_
    obtain ⟨hd, hn⟩ := h d s hr
    exact ⟨hd, Bool.eq_false_iff.mpr fun hs => Bool.eq_false_iff.mp hn (isNamePart_of_start hs)⟩
  | case4 quoted c hq hc r ih =>
    obtain ⟨rfl, rfl⟩ := hc
    rw [quotedBehind_cons (by decide), quotedBehind_cons (by decide), List.cons_append,
      List.cons_append, pieces_colons, ih]
    rfl
  | case5 quoted c hq hc d r hd hs ih =>
    -- The name of a marker ends with the text at the latest, as a break is no part of a name.
    obtain ⟨rfl, rfl⟩ := hc
    have hdq : d ≠ '\'' := isNamePart_ne (isNamePart_of_start hs) (by decide)
    rw [quotedBehind_cons (by decide), quotedBehind_cons hdq, List.cons_append, List.cons_append,
      pieces_marker hs, takeName_append h, dropName_append h, ih, quotedBehind_dropName]
    rfl
  | case6 quoted c hq hc d r hd hs ih =>
    obtain ⟨rfl, rfl⟩ := hc
    rw [quotedBehind_cons (by decide), List.cons_append, List.cons_append,
      pieces_colon, ← List.cons_append, ih]
    · rfl
    · intro e s he
      cases he
      exact ⟨hd, Bool.eq_false_iff.mpr hs⟩
  | case7 quoted c r hq hc ih =>
    rw [quotedBehind_cons hq, List.cons_append, pieces_plain hq hc, ih]
    rfl

/-! ## What is found -/

def Piece.name? : Piece → Option (List Char)
  | .char _ => none
  | .marker name => some name

def found (quoted : Bool) (cs : List Char) : List (List Char) := (pieces quoted cs).filterMap Piece.name?

theorem names_markersFrom (pos : Nat) (ps : List Piece) :
    (markersFrom pos ps).map (·.name) = (ps.filterMap Piece.name?).map String.ofList := by
  induction ps generalizing pos with
  | nil => rfl
  | cons p ps ih =>
    cases p with
    | char c => exact ih _
    | marker name => exact congrArg (String.ofList name :: ·) (ih _)

theorem names_scan (sql : String) :
    (scan sql).map (·.name) = (found false sql.toList).map String.ofList := names_markersFrom 0 _

theorem scan_length (sql : String) : (scan sql).length = (found false sql.toList).length := by
  rw [← List.length_map (f := Marker.name), names_scan, List.length_map]

theorem found_append {rest : List Char} (h : Breaks rest) (quoted : Bool) (cs : List Char) :
    found quoted (cs ++ rest) = found quoted cs ++ found (quotedBehind quoted cs) rest := by
  rw [found, pieces_append h, List.filterMap_append]
  rfl

def isPlain (c : Char) : Bool := c != '\'' && c != ':'

theorem found_plain {cs : List Char} (h : cs.all isPlain = true) (quoted : Bool)
    (rest : List Char) : found quoted (cs ++ rest) = found quoted rest := by
  induction cs with
  | nil => rfl
  | cons c cs ih =>
    rw [List.all_cons, Bool.and_eq_true, isPlain, Bool.and_eq_true, bne_iff_ne, bne_iff_ne] at h
    rw [List.cons_append, found, pieces_plain h.1.1 fun he => h.1.2 he.1]
    exact ih h.2

/-- Text that leaves the scanner outside literals, with the markers that are found in it. -/
def Yields (cs : List Char) (names : List (List Char)) : Prop :=
  ∀ rest, Breaks rest → found false (cs ++ rest) = names ++ found false rest

theorem Yields.found {cs : List Char} {names : List (List Char)} (h : Yields cs names) :
    found false cs = names := by
  have h := h [] breaks_nil
  rw [List.append_nil, show Sql.found false [] = [] by rw [Sql.found, pieces_nil]; rfl,
    List.append_nil] at h
  exact h

theorem yields_plain {cs : List Char} (h : cs.all isPlain = true) : Yields cs [] :=
  fun rest _ => found_plain h false rest

theorem Yields.behind_plain (cs : List Char) {ds : List Char} {ns : List (List Char)}
    (h : cs.all isPlain = true) (k : Yields ds ns) : Yields (cs ++ ds) ns := by
  intro rest hr
  rw [List.append_assoc, found_plain h, k rest hr]

/-- A separator: plain, and a break at its beginning. -/
def separates : List Char → Bool
  | [] => false
  | c :: r => !isNamePart c && (c :: r).all isPlain

theorem breaks_separator {sep : List Char} (h : separates sep = true) (rest : List Char) :
    Breaks (sep ++ rest) := by
  cases sep with
  | nil => cases h
  | cons c r =>
    rw [separates, Bool.and_eq_true, Bool.not_eq_true', List.all_cons, Bool.and_eq_true, isPlain,
      Bool.and_eq_true, bne_iff_ne, bne_iff_ne] at h
    exact breaks_cons h.2.1.2 h.1 _

theorem found_separator {sep : List Char} (h : separates sep = true) (quoted : Bool)
    (rest : List Char) : found quoted (sep ++ rest) = found quoted rest := by
  cases sep with
  | nil => cases h
  | cons c r =>
    rw [separates, Bool.and_eq_true] at h
    exact found_plain h.2 quoted rest

theorem Yields.separated {cs ds sep : List Char} {ns ms : List (List Char)} (h : Yields cs ns)
    (hsep : separates sep = true) (k : Yields ds ms) : Yields (cs ++ (sep ++ ds)) (ns ++ ms) := by
  intro rest hr
  rw [List.append_assoc, List.append_assoc, h _ (breaks_separator hsep _), found_separator hsep,
    k rest hr, List.append_assoc]

/-! ## Texts of a model -/

/-- An even number of single quotes, and no marker: nothing that follows is scanned differently. -/
structure Tidy (text : String) : Prop where
  even : text.toList.count '\'' % 2 = 0
  unmarked : scan text = []

theorem quotedBehind_eq (quoted : Bool) (cs : List Char) :
    quotedBehind quoted cs = (quoted ^^ (cs.count '\'' % 2 == 1)) := by
  induction cs generalizing quoted with
  | nil => exact (Bool.xor_false quoted).symm
  | cons c cs ih =>
    by_cases hc : c = '\''
    · subst hc
      have h : ∀ n : Nat, ((n + 1) % 2 == 1) = !(n % 2 == 1) := by
        intro n
        rcases Nat.mod_two_eq_zero_or_one n with hn | hn
        · rw [Nat.add_mod, hn]
          rfl
        · rw [Nat.add_mod, hn]
          rfl
      rw [quotedBehind_quote, ih, List.count_cons_self, h, Bool.not_xor, Bool.xor_not]
    · rw [quotedBehind_cons hc, ih, List.count_cons_of_ne hc]

theorem quotedBehind_of_even {cs : List Char} (h : cs.count '\'' % 2 = 0) (quoted : Bool) :
    quotedBehind quoted cs = quoted := by
  rw [quotedBehind_eq, h]
  exact Bool.xor_false quoted

theorem yields_of_even {cs : List Char} (h : cs.count '\'' % 2 = 0) : Yields cs (found false cs) := by
  intro rest hr
  rw [found_append hr, quotedBehind_of_even h]

theorem found_of_scan_nil {text : String} (h : scan text = []) : found false text.toList = [] := by
  have hl := scan_length text
  rw [h] at hl
  exact List.eq_nil_of_length_eq_zero hl.symm

theorem Tidy.yields {text : String} (h : Tidy text) : Yields text.toList [] := by
  have hy := yields_of_even h.even
  rw [found_of_scan_nil h.unmarked] at hy
  exact hy

theorem Tidy.of_yields {text : String} (he : text.toList.count '\'' % 2 = 0)
    (h : Yields text.toList []) : Tidy text := by
  refine ⟨he, List.eq_nil_of_length_eq_zero ?_⟩
  rw [scan_length, h.found]
  rfl

/-! ## Quoted texts -/

theorem takeName_doubled (cs : List Char) :
    (doubled '"' cs).takeWhile isNamePart = cs.takeWhile isNamePart := by
  induction cs with
  | nil => rfl
  | cons c cs ih =>
    unfold doubled
    split
    · next h =>
      subst h
      rw [List.takeWhile_cons_of_neg (by decide), List.takeWhile_cons_of_neg (by decide)]
    · by_cases hc : isNamePart c = true
      · rw [List.takeWhile_cons_of_pos hc, List.takeWhile_cons_of_pos hc, ih]
      · rw [List.takeWhile_cons_of_neg hc, List.takeWhile_cons_of_neg hc]

theorem dropName_doubled (cs : List Char) :
    (doubled '"' cs).dropWhile isNamePart = doubled '"' (cs.dropWhile isNamePart) := by
  induction cs with
  | nil => rfl
  | cons c cs ih =>
    by_cases h : c = '"'
    · subst h
      rw [List.dropWhile_cons_of_neg (by decide), doubled, if_pos rfl,
        List.dropWhile_cons_of_neg (by decide)]
    · rw [doubled, if_neg h]
      by_cases hc : isNamePart c = true
      · rw [List.dropWhile_cons_of_pos hc, List.dropWhile_cons_of_pos hc, ih]
      · rw [List.dropWhile_cons_of_neg hc, List.dropWhile_cons_of_neg hc, doubled, if_neg h]

theorem doubled_cons_ne {q c : Char} (h : c ≠ q) (cs : List Char) :
    doubled q (c :: cs) = c :: doubled q cs := by rw [doubled, if_neg h]

theorem count_doubled (cs : List Char) : (doubled '"' cs).count '\'' = cs.count '\'' := by
  induction cs with
  | nil => rfl
  | cons c cs ih =>
    unfold doubled
    split
    · next h =>
      subst h
      rw [List.count_cons_of_ne (by decide), List.count_cons_of_ne (by decide),
        List.count_cons_of_ne (by decide), ih]
    · rw [List.count_cons, List.count_cons, ih]

/-- Doubled double quotes neither make nor break a marker. -/
theorem found_doubled (quoted : Bool) (cs : List Char) :
    found quoted (doubled '"' cs) = found quoted cs := by
  unfold found
  fun_induction pieces quoted cs with
  | case1 quoted => rw [doubled, pieces_nil]
  | case2 quoted r ih =>
    rw [doubled_cons_ne (by decide), pieces_quote]
    exact ih
  | case3 quoted c hq hc =>
    obtain ⟨rfl, rfl⟩ := hc
    rw [doubled_cons_ne (by decide), doubled, pieces_colon (r := []) nofun, pieces_nil]
  | case4 quoted c hq hc r ih =>
    obtain ⟨rfl, rfl⟩ := hc
    rw [doubled_cons_ne (by decide), doubled_cons_ne (by decide), pieces_colons]
    exact ih
  | case5 quoted c hq hc d r hd hs ih =>
    obtain ⟨rfl, rfl⟩ := hc
    have hne : d ≠ '"' := isNamePart_ne (isNamePart_of_start hs) (by decide)
    rw [doubled_cons_ne (by decide), doubled_cons_ne hne, pieces_marker hs, takeName_doubled,
      dropName_doubled]
    exact congrArg (_ :: ·) ih
  | case6 quoted c hq hc d r hd hs ih =>
    obtain ⟨rfl, rfl⟩ := hc
    have hhead : ∃ s, doubled '"' (d :: r) = d :: s := by
      unfold doubled
      split
      · next h => exact ⟨_, by rw [h]⟩
      · exact ⟨_, rfl⟩
    rw [doubled_cons_ne (by decide), pieces_colon]
    · exact ih
    · intro e s he
      obtain ⟨t, ht⟩ := hhead
      cases ht.symm.trans he
      exact ⟨hd, Bool.eq_false_iff.mpr hs⟩
  | case7 quoted c r hq hc ih =>
    by_cases hd : c = '"'
    · subst hd
      rw [doubled, if_pos rfl, pieces_plain hq hc, pieces_plain hq hc]
      exact ih
    · rw [doubled_cons_ne hd, pieces_plain hq hc]
      exact ih

theorem Tidy.ident {text : String} (h : Tidy text) : Yields (quoteIdentifier text) [] := by
  intro rest _
  have hrest : Breaks ('"' :: rest) := breaks_cons (by decide) (by decide) rest
  have heven : (doubled '"' text.toList).count '\'' % 2 = 0 := by rw [count_doubled, h.even]
  have hquote : ∀ r, found false ('"' :: r) = found false r := @found_plain ['"'] (by decide) _
  have hcut : quoteIdentifier text ++ rest = '"' :: (doubled '"' text.toList ++ '"' :: rest) := by
    rw [quoteIdentifier, quotedBy, List.append_assoc]
    rfl
  rw [hcut, hquote, found_append hrest, found_doubled, found_of_scan_nil h.unmarked,
    quotedBehind_of_even heven, hquote]

/-- Inside a literal nothing is a marker, whatever the text. -/
theorem found_literal (cs rest : List Char) :
    found true (doubled '\'' cs ++ '\'' :: rest) = found false rest := by
  induction cs with
  | nil => rw [doubled, List.nil_append, found, pieces_quote]; rfl
  | cons c cs ih =>
    by_cases hc : c = '\''
    · subst hc
      rw [doubled, if_pos rfl, List.cons_append, List.cons_append, found, pieces_quote, pieces_quote]
      exact ih
    · rw [doubled_cons_ne hc, List.cons_append, found, pieces_plain hc fun h => Bool.noConfusion h.2]
      exact ih

theorem yields_literal (text : String) : Yields (quoteString text) [] := by
  intro rest _
  have hcut : quoteString text ++ rest = '\'' :: (doubled '\'' text.toList ++ '\'' :: rest) := by
    rw [quoteString, quotedBy, List.append_assoc]
    rfl
  rw [hcut, found, pieces_quote]
  exact found_literal text.toList rest

/-! ## Markers and numbers -/

theorem isNamePart_of_isDigit {c : Char} (h : c.isDigit = true) : isNamePart c = true := by
  rw [isNamePart, h, Bool.or_true]

theorem isPlain_of_isNamePart {c : Char} (h : isNamePart c = true) : isPlain c = true := by
  rw [isPlain, Bool.and_eq_true, bne_iff_ne, bne_iff_ne]
  exact ⟨isNamePart_ne h (by decide), isNamePart_ne h (by decide)⟩

theorem isDigit_of_mem_repr {c : Char} {n : Nat} (h : c ∈ n.repr.toList) : c.isDigit = true := by
  rw [Nat.toList_repr] at h
  exact Nat.isDigit_of_mem_toDigits (by decide) (by decide) h

def markerName (n : Nat) : List Char := 'b' :: n.repr.toList

theorem yields_marker (n : Nat) : Yields (':' :: markerName n) [markerName n] := by
  intro rest hr
  have hall : ∀ c ∈ n.repr.toList, isNamePart c = true := fun c hc =>
    isNamePart_of_isDigit (isDigit_of_mem_repr hc)
  have htake : n.repr.toList.takeWhile isNamePart = n.repr.toList :=
    List.takeWhile_eq_self_iff.mpr hall
  have hdrop : n.repr.toList.dropWhile isNamePart = [] := List.dropWhile_eq_nil_iff.mpr hall
  rw [markerName, List.cons_append, List.cons_append, found, pieces_marker (by decide),
    takeName_append hr, dropName_append hr, htake, hdrop]
  rfl

theorem yields_int (n : Int) : Yields (Double.intText n) [] := by
  refine yields_plain (List.all_eq_true.mpr fun c hc => ?_)
  have hnat : ∀ m : Nat, c ∈ m.repr.toList → isPlain c = true := fun m h =>
    isPlain_of_isNamePart (isNamePart_of_isDigit (isDigit_of_mem_repr h))
  cases n with
  | ofNat m => exact hnat m hc
  | negSucc m =>
    rw [Double.intText, show (Int.negSucc m).repr = "-" ++ (m + 1).repr from rfl,
      String.toList_append] at hc
    rcases List.mem_append.mp hc with hc | hc
    · cases List.mem_singleton.mp hc
      decide
    · exact hnat (m + 1) hc

end Polystore.Sql
