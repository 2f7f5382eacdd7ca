import Polystore.Proofs.Counting
import Polystore.Proofs.Text.Words

/-! # Where predicates are joined to native texts

A native text that is not wrapped is continued with AND if the word WHERE stands between blanks in
it, at whatever place, and with WHERE if not. That is not always the WHERE of the text itself, which
is the one outside of parentheses and literals. -/

namespace Polystore.Sql
set_option autoImplicit false

open Tokens (key spaced commaSeparated parenthesized join)

/-! ## Places of WHERE -/

/-- What a character of SQL text stands in: parentheses, and maybe a literal. -/
structure Spot where
  depth : Int
  quoted : Bool
deriving DecidableEq

namespace Spot

def top : Spot := ⟨0, false⟩

def next (p : Spot) (c : Char) : Spot :=
  if c = '\'' then { p with quoted := !p.quoted }
  else if p.quoted then p
  else if c = '(' then { p with depth := p.depth + 1 }
  else if c = ')' then { p with depth := p.depth - 1 }
  else p

def behind (cs : List Char) : Spot := cs.foldl next top

end Spot

def isWordEnd (c : Char) : Bool := !(Text.isAlphanumeric c || c == '_')

/-- The word WHERE, in any letter case, stands between blanks or ends of the text. -/
def ApartWhere (text : String) : Prop :=
  ∃ before w after, w.map Char.toLower = "where".toList ∧
    Text.Stands Text.isBlank text.toList before w after

/-- The text has a WHERE of its own: as a whole word, outside of parentheses and literals. -/
def TopWhere (text : String) : Prop :=
  ∃ before w after, w.map Char.toLower = "where".toList ∧
    Text.Stands isWordEnd text.toList before w after ∧ Spot.behind before = .top

/-- Whether a WHERE of the text itself begins at a position. -/
def topWhereAt (cs : List Char) (n : Nat) : Bool :=
  ((cs.drop n).take 5).map Char.toLower == "where".toList &&
    (cs.take n).getLast?.all isWordEnd && (cs.drop (n + 5)).head?.all isWordEnd &&
    Spot.behind (cs.take n) == .top

theorem topWhere_iff (text : String) :
    TopWhere text ↔ (List.range (text.toList.length + 1)).any (topWhereAt text.toList) = true := by
  have hat : ∀ n, topWhereAt text.toList n = true ↔
      ((text.toList.drop n).take 5).map Char.toLower = "where".toList ∧
      (∀ c ∈ (text.toList.take n).getLast?, isWordEnd c = true) ∧
      (∀ c ∈ (text.toList.drop (n + 5)).head?, isWordEnd c = true) ∧
      Spot.behind (text.toList.take n) = .top := by
    intro n
    simp only [topWhereAt, Bool.and_eq_true, beq_iff_eq, Option.all_eq_true, and_assoc]
    rfl
  rw [List.any_eq_true]
  simp only [hat]
  constructor
  · rintro ⟨before, w, after, hw, ⟨hsplit, hleft, hright⟩, hspot⟩
    have hlength : w.length = 5 := by rw [← List.length_map Char.toLower, hw]; rfl
    have hrest : text.toList = before ++ (w ++ after) := by rw [hsplit, List.append_assoc]
    have htake : text.toList.take before.length = before := by rw [hrest, List.take_left]
    have hdrop : text.toList.drop before.length = w ++ after := by rw [hrest, List.drop_left]
    refine ⟨before.length, ?_, ?_, ?_, ?_, ?_⟩
    · rw [List.mem_range, hrest, List.length_append]
      omega
    · rw [hdrop, ← hlength, List.take_left]
      exact hw
    · rw [htake]
      exact hleft
    · rw [← List.drop_drop, hdrop, ← hlength, List.drop_left]
      exact hright
    · rw [htake]
      exact hspot
  · rintro ⟨n, -, hw, hleft, hright, hspot⟩
    refine ⟨_, _, _, hw, ⟨?_, hleft, hright⟩, hspot⟩
    rw [← List.drop_drop, List.append_assoc, List.take_append_drop, List.take_append_drop]

instance (text : String) : Decidable (TopWhere text) := decidable_of_iff' _ (topWhere_iff text)

theorem mentionsWhere_iff (text : String) :
    mentionsWhere (Text.lowerAscii (Text.trim text)) = true ↔ ApartWhere text := by
  have hletters : ∀ c ∈ "where".toList, Text.isBlank c = false := Text.notBlank_of_all (by decide)
  rw [mentionsWhere, List.contains_iff_mem]
  exact Text.mem_words_lowered hletters (by decide) text

/-! ## Texts of statements -/

/-- Predicates behind a text: the first behind a keyword, all others behind AND. -/
def joined (k : Keyword) : List String → String
  | [] => ""
  | t :: ts => " " ++ k.text ++ " " ++ t ++ joined .and ts

theorem text_continued (tss : List Tokens) :
    Tokens.text (continued .and tss) = joined .and (tss.map Tokens.text) := by
  induction tss with
  | nil => rfl
  | cons ts tss ih =>
    have hseparator : Tokens.text (Pred.clauseSeparator .and) = " " ++ Keyword.text .and ++ " " := by
      decide
    have hcons : continued .and (ts :: tss) = Pred.clauseSeparator .and ++ ts ++ continued .and tss :=
      rfl
    rw [hcons, text_append, text_append, ih, hseparator]
    rfl

theorem text_appended (hasWhere : Bool) (tss : List Tokens) :
    Tokens.text (appended hasWhere tss) =
      joined (if hasWhere then .and else .where) (tss.map Tokens.text) := by
  cases tss with
  | nil => rfl
  | cons ts tss =>
    cases hasWhere with
    | true => exact text_continued (ts :: tss)
    | false =>
      have hfront : Tokens.text [.key .space, .key .where, .key .space] =
          " " ++ Keyword.text .where ++ " " := by decide
      show Tokens.text (_ ++ join _ (ts :: tss)) = _
      rw [join_cons, text_append, text_append, text_continued, hfront, ← String.append_assoc]
      rfl

/-! ## Texts without a subselect around them -/

/-- What the text of a native query begins its statements with, if it is not wrapped: a full query
stands by itself, and a fragment behind the projection. -/
inductive Unwrapped (q : NativeQuery) (text : String) : String → Prop
  | full (h : isFullQuery (Text.lowerAscii (Text.trim text)) = true)
      (all : q.projectionText?.getD "*" = "*") : Unwrapped q text text
  | fragment (h : isFullQuery (Text.lowerAscii (Text.trim text)) = false) :
      Unwrapped q text ("SELECT " ++ q.projectionText?.getD "*" ++ " " ++ text)

section
variable {d : Dialect} {s : Scope} {q : NativeQuery} {text sql : String} {filter : Option Filter}
  {sort : List SortField} {page : Page} {params : Entries Value}

theorem Unwrapped.nativeText (h : Unwrapped q text sql) :
    nativeText text (q.projectionText?.getD "*") =
      (sql, mentionsWhere (Text.lowerAscii (Text.trim text))) := by
  unfold Sql.nativeText
  cases h with
  | full h all =>
    rw [all]
    simp only [h, if_true, beq_self_eq_true]
  | fragment h => simp only [h, if_false, Bool.false_eq_true]

theorem Unwrapped.base (h : Unwrapped q text sql) (hq : s.view.native = some q)
    (htext : q.sqlText? = some text) {b : Base} (hb : base s params = .ok b) :
    b.tokens = [.raw sql] ∧ b.hasWhere = mentionsWhere (Text.lowerAscii (Text.trim text)) := by
  have hnative := h.nativeText
  generalize mentionsWhere (Text.lowerAscii (Text.trim text)) = w at hnative
  simp only [Sql.base, hq, nativeBase, htext] at hb
  split at hb
  · cases hb
  · next base hbase =>
    cases (Option.filter_eq_some_iff.mp hbase).1
    rw [hnative] at hb
    obtain ⟨binds, -, rfl⟩ := map_eq_ok.mp hb
    exact ⟨rfl, rfl⟩

/-- Behind an unwrapped native text the first predicate follows the same keyword in all reads and
counts: AND if WHERE stands between blanks somewhere in the text, else WHERE. The keyword is that
for a WHERE of the text itself exactly if both are there, or neither is. -/
theorem native_joints (hq : s.view.native = some q) (htext : q.sqlText? = some text)
    (h : Unwrapped q text sql) :
    ∃ k, (k = .and ∧ ApartWhere text ∨ k = .where ∧ ¬ApartWhere text) ∧
      ((k = if TopWhere text then .and else .where) ↔ (ApartWhere text ↔ TopWhere text)) ∧
      (∀ d filter sort page params st, select d s filter sort page params = .ok st →
        ∃ r later hasWhere, predicate? d s true filter = .ok r ∧
          seek s r.2.length sort hasWhere page = .ok later ∧
          st.text = sql ++ joined k ((tokensOf r ++ tokensOf later).map Tokens.text) ++
            (orderText s.view sort ++ pageText d page)) ∧
      (∀ d filter params st, count d s filter params = .ok st →
        ∃ r, predicate? d s true filter = .ok r ∧
          st.text = "SELECT COUNT(1) FROM (" ++ (sql ++ joined k ((tokensOf r).map Tokens.text)) ++
            ") strata_count") := by
  have hbase : ∀ {params : Entries Value} {b : Base}, base s params = .ok b →
      b.tokens = [.raw sql] ∧ b.hasWhere = mentionsWhere (Text.lowerAscii (Text.trim text)) :=
    h.base hq htext
  have hw := mentionsWhere_iff text
  -- Nothing more of the text is looked at than this one answer.
  generalize mentionsWhere (Text.lowerAscii (Text.trim text)) = w at hbase hw
  refine ⟨if w then .and else .where, ?_, ?_, ?_, ?_⟩
  · rw [← hw]
    cases w with
    | true => exact .inl ⟨rfl, rfl⟩
    | false => exact .inr ⟨rfl, Bool.false_ne_true⟩
  · rw [← hw]
    by_cases htop : TopWhere text
    · cases w <;> simp [htop]
    · cases w <;> simp [htop]
  · intro d filter sort page params st hst
    obtain ⟨b, r, later, hb, hr, hlater, rfl⟩ := select_eq_ok.mp hst
    obtain ⟨htokens, hwhere⟩ := hbase hb
    refine ⟨r, later, _, hr, hlater, ?_⟩
    show Tokens.text (((b.restrict r).restrict later).tokens ++ _) = _
    rw [(restrict_restrict b r later).1, text_append, text_append, htokens, hwhere, text_raw,
      text_appended, text_tail]
  · intro d filter params st hst
    rw [count_eq] at hst
    obtain ⟨⟨b', n⟩, hfiltered, rfl⟩ := map_eq_ok.mp hst
    obtain ⟨b, hb, hfiltered⟩ := bind_eq_ok.mp hfiltered
    obtain ⟨r, hr, hbn⟩ := bind_eq_ok.mp hfiltered
    cases hbn
    obtain ⟨htokens, hwhere⟩ := hbase hb
    have hrestrict : (b.restrict r).tokens = b.tokens ++ appended b.hasWhere (tokensOf r) := by
      have hnone : tokensOf (none, []) = [] := rfl
      have h := (restrict_restrict b r (none, [])).1
      rwa [hnone, List.append_nil] at h
    refine ⟨r, hr, ?_⟩
    show Tokens.text (spaced _) = _
    rw [text_count, hrestrict, text_append, htokens, hwhere, text_raw, text_appended]

end

/-! ## Misplaced joints -/

/-- A WHERE with a parenthesis right behind it. -/
def closeText : String := "FROM docs WHERE(tenant = 1)"

/-- The only WHERE belongs to a subselect. -/
def innerText : String := "SELECT * FROM (SELECT * FROM docs WHERE id > 0) d"

def docsOf (text : String) : Scope :=
  let entity : Entity := ⟨"Doc", .entity, some "docs", [("owner", .ofType (.scalar "long"))], []⟩
  ⟨⟨[("Doc", entity)], []⟩, entity, ⟨"docs", [], some ⟨some (.str text), none, false⟩⟩⟩

def owned : Filter := .cond (.of "owner" .eq (.long 7))

theorem base_docsOf {text sql : String} {hasWhere : Bool} (hblank : Text.isBlankText text = false)
    (hnative : nativeText text "*" = (sql, hasWhere)) (hscan : scan sql = []) :
    base (docsOf text) [] = .ok ⟨[.raw sql], [], hasWhere⟩ :=
  base_native rfl hblank hnative hscan

def ownedPred : Bound (Option Pred) :=
  (some (.test (spaced [[.raw "owner"], key .eq, [marker 1]]) false), [⟨.long 7, "long"⟩])

theorem predicate_owned (text : String) :
    predicate? .postgres (docsOf text) true (some owned) = .ok ownedPred := rfl

/-- The first text gets a second WHERE, and the second text none of its own. -/
theorem joints_misplaced :
    (TopWhere closeText ∧ ¬ApartWhere closeText ∧ ∃ st,
      select .postgres (docsOf closeText) (some owned) [] Page.first [] = .ok st ∧
      st.text = "SELECT * FROM docs WHERE(tenant = 1) WHERE owner = :b1 LIMIT 50 OFFSET 0") ∧
    (¬TopWhere innerText ∧ ApartWhere innerText ∧ ∃ st,
      select .postgres (docsOf innerText) (some owned) [] Page.first [] = .ok st ∧
      st.text = "SELECT * FROM (SELECT * FROM docs WHERE id > 0) d AND owner = :b1 " ++
        "LIMIT 50 OFFSET 0") := by
  have hclose : ¬ApartWhere closeText := by
    rw [← mentionsWhere_iff]
    decide +kernel
  have hinner : ApartWhere innerText := by
    rw [← mentionsWhere_iff]
    decide +kernel
  refine ⟨⟨by decide +kernel, hclose, ?_⟩, by decide +kernel, hinner, ?_⟩
  · have hbase := base_docsOf (show Text.isBlankText closeText = false by decide +kernel)
      (show _ = ("SELECT * " ++ closeText, false) by decide +kernel) (by decide +kernel)
    obtain ⟨k, hk, -, hselect, -⟩ := native_joints (s := docsOf closeText) rfl rfl
      (.fragment (by decide +kernel))
    obtain ⟨-, happart⟩ | ⟨rfl, -⟩ := hk
    · exact absurd happart hclose
    obtain ⟨st, hst⟩ : ∃ st, select .postgres (docsOf closeText) (some owned) [] Page.first [] =
        .ok st := ⟨_, select_eq_ok.mpr ⟨_, _, _, hbase, predicate_owned _, rfl, rfl⟩⟩
    obtain ⟨r, later, w, hr, hlater, htext⟩ := hselect _ _ _ _ _ st hst
    cases (predicate_owned closeText).symm.trans hr
    cases hlater
    exact ⟨st, hst, htext.trans (by decide +kernel)⟩
  · have hbase := base_docsOf (show Text.isBlankText innerText = false by decide +kernel)
      (show _ = (innerText, true) by decide +kernel) (by decide +kernel)
    obtain ⟨k, hk, -, hselect, -⟩ := native_joints (s := docsOf innerText) rfl rfl
      (.full (by decide +kernel) rfl)
    obtain ⟨rfl, -⟩ | ⟨-, happart⟩ := hk
    · obtain ⟨st, hst⟩ : ∃ st, select .postgres (docsOf innerText) (some owned) [] Page.first [] =
          .ok st := ⟨_, select_eq_ok.mpr ⟨_, _, _, hbase, predicate_owned _, rfl, rfl⟩⟩
      obtain ⟨r, later, w, hr, hlater, htext⟩ := hselect _ _ _ _ _ st hst
      cases (predicate_owned innerText).symm.trans hr
      cases hlater
      exact ⟨st, hst, htext.trans (by decide +kernel)⟩
    · exact absurd hinner happart

end Polystore.Sql
