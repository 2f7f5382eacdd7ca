import Polystore.Proofs.Sql.MarkerSpans

/-! # Quoted texts under the scanner

The compiler quotes literals and identifiers, the scanner knows the quotes of literals alone. So a
literal hides its text from the scanner, whatever the text; an identifier does not, and statements
keep one marker for each bind only over names that the scanner finds nothing in. -/

namespace Polystore.Sql
set_option autoImplicit false

open Text (size8)

/-! ## Opaque texts -/

/-- A marker of a text that some bytes have come in front of. -/
def Marker.shift (k : Nat) (m : Marker) : Marker := ⟨m.name, m.start + k, m.stop + k⟩

/-- Text that quoted text may stand behind: its literals are closed, and at its end is a blank or an
opening parenthesis. -/
structure LeadIn (p : String) : Prop where
  closed : p.toList.count '\'' % 2 = 0
  edge : ∃ front c, p.toList = front ++ [c] ∧ (Text.isBlank c = true ∨ c = '(')

/-- Text that may stand behind quoted text. -/
def LeadOut (q : String) : Prop :=
  ∃ c rest, q.toList = c :: rest ∧ (Text.isBlank c = true ∨ c = ',' ∨ c = ')')

/-- Between other texts the scanner finds the markers of these, in their places, and no others. -/
def Opaque (quoted : List Char) : Prop :=
  ∀ p q : String, LeadIn p → LeadOut q → scan (p ++ String.ofList quoted ++ q) =
    scan p ++ (scan q).map (Marker.shift (size8 (p.toList ++ quoted)))

section
variable {quoted : List Char} {q : String}

theorem isNamePart_of_isBlank {c : Char} (h : Text.isBlank c = true) : isNamePart c = false := by
  by_contra hname
  have hbounds : (65 ≤ c.toNat ∧ c.toNat ≤ 90 ∨ 97 ≤ c.toNat ∧ c.toNat ≤ 122) ∨ c.toNat = 95 ∨
      48 ≤ c.toNat ∧ c.toNat ≤ 57 := by
    have hunderscore : c = '_' → c.toNat = 95 := fun he => by rw [he]; rfl
    simp only [isNamePart, isNameStart, Char.isAlpha, Char.isUpper, Char.isLower, Char.isDigit,
      Bool.not_eq_false, Bool.or_eq_true, Bool.and_eq_true, decide_eq_true_eq, beq_iff_eq,
      ge_iff_le, UInt32.le_iff_toNat_le] at hname
    change (((65 ≤ c.toNat ∧ c.toNat ≤ 90) ∨ (97 ≤ c.toNat ∧ c.toNat ≤ 122)) ∨ c = '_') ∨
      (48 ≤ c.toNat ∧ c.toNat ≤ 57) at hname
    rcases hname with (hletter | he) | hdigit
    · exact .inl hletter
    · exact .inr (.inl (hunderscore he))
    · exact .inr (.inr hdigit)
  simp only [Text.isBlank, Bool.or_eq_true, Bool.and_eq_true, decide_eq_true_eq, beq_iff_eq] at h
  omega

theorem LeadOut.breaks (h : LeadOut q) : Breaks q.toList := by
  obtain ⟨c, rest, hq, hc⟩ := h
  have hedge : c ≠ ':' ∧ isNamePart c = false := by
    rcases hc with hblank | rfl | rfl
    · refine ⟨?_, isNamePart_of_isBlank hblank⟩
      rintro rfl
      exact absurd hblank (by decide)
    · decide
    · decide
  rw [hq]
  exact breaks_cons hedge.1 hedge.2 rest

/-! ## Markers of parts -/

theorem markersFrom_append (pos : Nat) (ps qs : List Piece) : markersFrom pos (ps ++ qs) =
    markersFrom pos ps ++ markersFrom (pos + size8 (ps.flatMap Piece.chars)) qs := by
  induction ps generalizing pos with
  | nil => rfl
  | cons p ps ih =>
    cases p with
    | char c =>
      have hpos : pos + c.utf8Size + size8 (ps.flatMap Piece.chars) =
          pos + size8 (c :: ps.flatMap Piece.chars) := by rw [size8, Nat.add_assoc]
      exact (ih _).trans (by rw [hpos]; rfl)
    | marker name =>
      have hpos : pos + size8 (':' :: name) + size8 (ps.flatMap Piece.chars) =
          pos + size8 (':' :: name ++ ps.flatMap Piece.chars) := by
        rw [size8_append, Nat.add_assoc]
      exact congrArg (_ :: ·) ((ih _).trans (by rw [hpos]; rfl))

theorem markersFrom_shift (k pos : Nat) (ps : List Piece) :
    markersFrom (pos + k) ps = (markersFrom pos ps).map (Marker.shift k) := by
  induction ps generalizing pos with
  | nil => rfl
  | cons p ps ih =>
    cases p with
    | char c =>
      have hpos : pos + k + c.utf8Size = pos + c.utf8Size + k := by omega
      rw [markersFrom, markersFrom, hpos, ih]
    | marker name =>
      have hpos : pos + k + size8 (':' :: name) = pos + size8 (':' :: name) + k := by omega
      simp only [markersFrom, List.map_cons, Marker.shift, hpos, ih]

theorem markersFrom_of_found_nil {ps : List Piece} (h : ps.filterMap Piece.name? = []) (pos : Nat) :
    markersFrom pos ps = [] := by
  have hnames := names_markersFrom pos ps
  rw [h] at hnames
  exact List.map_eq_nil_iff.mp hnames

theorem leadIn_blank : LeadIn " " := ⟨by decide, [], ' ', rfl, .inl rfl⟩

/-- What an opaque text leaves to be found: the markers in it, and those behind it. -/
theorem Opaque.length_found (h : Opaque quoted) (hout : LeadOut q) :
    (found false quoted).length + (found (quotedBehind false quoted) q.toList).length =
      (found false q.toList).length := by
  have hblank : ∀ rest, found false (' ' :: rest) = found false rest := @found_plain [' '] rfl false
  have htext : (" " ++ String.ofList quoted ++ q).toList = ' ' :: (quoted ++ q.toList) := by
    simp [String.toList_append]
  have hscan := congrArg List.length (h " " q leadIn_blank hout)
  have hfront : found false " ".toList = [] := (hblank []).trans (by rw [found, pieces_nil]; rfl)
  rw [List.length_append, List.length_map, scan_length, scan_length, scan_length, hfront, htext,
    hblank, found_append hout.breaks, List.length_append, List.length_nil, Nat.zero_add] at hscan
  exact hscan

/-- Text that begins with a quote is opaque if and only if its literals are closed and there are no
markers in it. -/
theorem opaque_iff (hq : ∀ rest, Breaks (quoted ++ rest)) :
    Opaque quoted ↔ quoted.count '\'' % 2 = 0 ∧ found false quoted = [] := by
  constructor
  · intro h
    -- A blank shows that nothing is found in the text, a marker that it is found behind the text.
    have hblank := h.length_found (q := " ") ⟨' ', [], rfl, .inl rfl⟩
    have hmarker := h.length_found (q := " :a") ⟨' ', [':', 'a'], rfl, .inl rfl⟩
    have hone : found false " :a".toList = [['a']] := by decide +kernel
    have hnone : found true " :a".toList = [] := by decide +kernel
    have hempty : found false " ".toList = [] := by decide +kernel
    have hfound : found false quoted = [] := by
      rw [hempty, List.length_nil] at hblank
      exact List.eq_nil_of_length_eq_zero (by omega)
    refine ⟨?_, hfound⟩
    by_contra hodd
    have hquoted : quotedBehind false quoted = true := by
      rw [quotedBehind_eq]
      simpa using hodd
    rw [hfound, hquoted, hone, hnone] at hmarker
    cases hmarker
  · rintro ⟨heven, hfound⟩ p q hp hout
    have hempty : ∀ pos, markersFrom pos (pieces false quoted) = [] :=
      markersFrom_of_found_nil hfound
    have hshift := markersFrom_shift (size8 (p.toList ++ quoted)) 0 (pieces false q.toList)
    rw [Nat.zero_add] at hshift
    rw [scan, String.toList_append, String.toList_append, String.toList_ofList, List.append_assoc,
      pieces_append (hq q.toList), quotedBehind_of_even hp.closed, pieces_append hout.breaks,
      quotedBehind_of_even heven, markersFrom_append, markersFrom_append, hempty, List.nil_append,
      flatMap_pieces, flatMap_pieces, Nat.zero_add, ← size8_append, hshift]
    rfl

/-! ## Literals and identifiers -/

theorem quotedBy_breaks {c : Char} (hc : c ≠ ':') (hn : isNamePart c = false) (cs rest : List Char) :
    Breaks (quotedBy c cs ++ rest) := by
  rw [quotedBy, List.append_assoc]
  exact breaks_cons hc hn _

theorem count_quoteString (x : String) : (quoteString x).count '\'' % 2 = 0 := by
  have hdoubled : ∀ cs : List Char, (doubled '\'' cs).count '\'' = 2 * cs.count '\'' := by
    intro cs
    induction cs with
    | nil => rfl
    | cons c cs ih =>
      by_cases hc : c = '\''
      · simp only [hc, doubled, if_true, List.count_cons_self, ih]
        omega
      · rw [doubled_cons_ne hc, List.count_cons_of_ne hc, List.count_cons_of_ne hc, ih]
  simp only [quoteString, quotedBy, List.cons_append, List.count_cons_self, List.count_append,
    hdoubled, List.count_nil]
  omega

theorem count_quoteIdentifier (x : String) :
    (quoteIdentifier x).count '\'' = x.toList.count '\'' := by
  simp [quoteIdentifier, quotedBy, count_doubled]

theorem found_quoteIdentifier (x : String) :
    found false (quoteIdentifier x) = found false x.toList := by
  have hquote : ∀ quoted rest, found quoted ('"' :: rest) = found quoted rest :=
    fun quoted => @found_plain ['"'] rfl quoted
  have hbreak : Breaks ['"'] := breaks_cons (by decide) (by decide) []
  have hnil : ∀ quoted, found quoted [] = [] := fun quoted => by rw [found, pieces_nil]; rfl
  rw [quoteIdentifier, quotedBy, List.cons_append, hquote, found_append hbreak, found_doubled,
    hquote, hnil, List.append_nil]

/-- A literal is opaque, whatever its text. An identifier is opaque if and only if its name has an
even number of single quotes and no marker; with any other name the statement has markers that no
bind belongs to, or loses some that one does. -/
theorem quoted_texts_opacity (x : String) :
    Opaque (Token.litString x).chars ∧ (Opaque (Token.ident x).chars ↔ Tidy x) := by
  have hstring : ∀ rest, Breaks (quoteString x ++ rest) :=
    quotedBy_breaks (by decide) (by decide) _
  have hident : ∀ rest, Breaks (quoteIdentifier x ++ rest) :=
    quotedBy_breaks (by decide) (by decide) _
  have hscan : scan x = [] ↔ found false x.toList = [] := by
    rw [← List.length_eq_zero_iff, scan_length, List.length_eq_zero_iff]
  constructor
  · exact (opaque_iff hstring).mpr ⟨count_quoteString x, (yields_literal x).found⟩
  · show Opaque (quoteIdentifier x) ↔ Tidy x
    rw [opaque_iff hident, count_quoteIdentifier, found_quoteIdentifier, ← hscan]
    exact ⟨fun h => ⟨h.1, h.2⟩, fun h => ⟨h.even, h.unmarked⟩⟩

end

/-! ## A name with a colon -/

/-- Documents of a table with a colon in its name. -/
def oldDocs : Scope :=
  let entity : Entity := ⟨"Doc", .entity, some "docs:old", [("id", .ofType (.scalar "long"))], []⟩
  ⟨⟨[("Doc", entity)], []⟩, entity, ⟨"core", [], none⟩⟩

/-- The name is no opaque text: of two markers in the statement only one has a bind. -/
theorem oldDocs_overcounted : ¬Opaque (Token.ident "docs:old").chars ∧
    ∃ st, select .postgres oldDocs (some (.cond (.of "id" .eq (.long 7)))) [] Page.first [] =
        .ok st ∧
      st.text = "SELECT id AS \"id\" FROM \"docs:old\" WHERE id = :b1 LIMIT 50 OFFSET 0" ∧
      (scan st.text).map (·.name) = ["old", "b1"] ∧ st.binds.length = 1 := by
  constructor
  · rw [(quoted_texts_opacity "docs:old").2]
    intro htidy
    exact absurd htidy.unmarked (by decide +kernel)
  · exact ⟨_, rfl, by decide +kernel, by decide +kernel, rfl⟩

end Polystore.Sql
