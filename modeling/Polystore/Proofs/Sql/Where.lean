import Mathlib.Data.List.TakeWhile
import Polystore.Proofs.Sql.Rereading

/-! # The condition of a whole statement

Reads, counts, updates and deletions all put their predicates behind tokens that hold no WHERE of
their own. What is read behind the first WHERE of the statement is then what was meant. -/

namespace Polystore.Sql
set_option autoImplicit false

open Tokens (key spaced commaSeparated parenthesized join)

/-! ## Tokens without WHERE -/

theorem mem_join {t : Token} {sep : Tokens} {tss : List Tokens} (h : t ∈ join sep tss) :
    t ∈ sep ∨ ∃ ts ∈ tss, t ∈ ts := by
  fun_induction join sep tss with
  | case1 => cases h
  | case2 ts => exact .inr ⟨ts, List.mem_singleton_self ts, h⟩
  | case3 ts rest hne ih =>
    rcases List.mem_append.mp h with h | h
    · rcases List.mem_append.mp h with h | h
      · exact .inr ⟨ts, List.mem_cons_self, h⟩
      · exact .inl h
    · rcases ih h with h | ⟨us, hus, h⟩
      · exact .inl h
      · exact .inr ⟨us, List.mem_cons_of_mem _ hus, h⟩

def Bare (ts : Tokens) : Prop := Token.key .where ∉ ts ∧ slots ts = 0

theorem slots_eq_zero {ts : Tokens} : slots ts = 0 ↔ ∀ t ∈ ts, t.isMarker = false := by
  rw [slots, List.countP_eq_zero]
  simp only [Bool.not_eq_true]

theorem Bare.join {sep : Tokens} {tss : List Tokens} (hsep : Bare sep) (h : ∀ ts ∈ tss, Bare ts) :
    Bare (join sep tss) := by
  constructor
  · intro hm
    rcases mem_join hm with hm | ⟨ts, hts, hm⟩
    · exact hsep.1 hm
    · exact (h ts hts).1 hm
  · rw [slots_eq_zero]
    intro t ht
    rcases mem_join ht with ht | ⟨ts, hts, ht⟩
    · exact slots_eq_zero.mp hsep.2 t ht
    · exact slots_eq_zero.mp (h ts hts).2 t ht

theorem Bare.spaced {tss : List Tokens} (h : ∀ ts ∈ tss, Bare ts) : Bare (spaced tss) :=
  Bare.join ⟨by decide, rfl⟩ h

theorem Bare.commaSeparated {tss : List Tokens} (h : ∀ ts ∈ tss, Bare ts) :
    Bare (commaSeparated tss) := Bare.join ⟨by decide, rfl⟩ h

theorem bare_raw (text : String) : Bare [.raw text] := ⟨by simp, rfl⟩

theorem bare_ident (name : String) : Bare [.ident name] := ⟨by simp, rfl⟩

theorem bare_key {k : Keyword} (h : k ≠ .where) : Bare (key k) := by
  refine ⟨fun hm => ?_, rfl⟩
  cases List.mem_singleton.mp hm
  exact h rfl

theorem bare_selectItem (expr name : String) : Bare (selectItem expr name) := by
  refine Bare.spaced fun ts h => ?_
  simp only [List.mem_cons, List.not_mem_nil, or_false] at h
  rcases h with rfl | rfl | rfl
  · exact bare_raw expr
  · exact bare_key (by decide)
  · exact bare_ident name

theorem bare_fieldItems {v : View} {name : String} {f : Field} {ts : Tokens}
    (h : ts ∈ fieldItems v name f) : Bare ts := by
  unfold fieldItems at h
  split at h
  · split at h
    · cases h
    · obtain ⟨⟨child, c⟩, -, hc⟩ := List.mem_filterMap.mp h
      obtain ⟨col, -, rfl⟩ := Option.map_eq_some_iff.mp hc
      exact bare_selectItem col _
  · cases List.mem_singleton.mp h
    exact bare_selectItem _ _

theorem bare_derivedSelect {s : Scope} {ts : Tokens} (h : derivedSelect s = .ok ts) : Bare ts := by
  obtain ⟨table, -, rfl⟩ := map_eq_ok.mp h
  have hitems : ∀ us ∈ selectItems s, Bare us := by
    intro us hus
    unfold selectItems at hus
    simp only at hus
    split at hus
    · cases List.mem_singleton.mp hus
      exact bare_key (by decide)
    · obtain ⟨⟨name, f⟩, -, hf⟩ := List.mem_flatMap.mp hus
      exact bare_fieldItems hf
  refine Bare.spaced fun us h => ?_
  simp only [List.mem_cons, List.not_mem_nil, or_false] at h
  rcases h with rfl | rfl | rfl | rfl
  · exact bare_key (by decide)
  · exact Bare.commaSeparated hitems
  · exact bare_key (by decide)
  · exact bare_ident table

/-! ## Restricted tokens -/

/-- Nothing but what the statement begins with: no WHERE yet, and as many binds as markers. -/
structure Base.Opening (b : Base) : Prop where
  unrestricted : b.hasWhere = false
  noWhere : Token.key .where ∉ b.tokens
  balanced : slots b.tokens = b.binds.length

/-- Restricted to the rows of a certain truth value, or to none where nothing is meant. -/
def Base.Covers (b : Base) (meaning : (Test → Truth) → Option Truth) : Prop :=
  if b.hasWhere then
    ∃ (front post : Tokens) (bs cs : List Bind) (e : Expr),
      b.tokens = front ++ .key .where :: post ∧ b.binds = bs ++ cs ∧
      Token.key .where ∉ front ∧ slots front = bs.length ∧ Whole post cs e ∧
      ∀ v, meaning v = some (e.truth v)
  else Token.key .where ∉ b.tokens ∧ ∀ v, meaning v = none

theorem Whole.spaced {ts : Tokens} {bs : List Bind} {e : Expr} (h : Whole ts bs e) :
    Whole (.key .space :: ts) bs e := ⟨h.balanced, h.reads⟩

theorem Operand.and_whole {ts us : Tokens} {bs cs : List Bind} {a e : Expr} (h : Operand ts bs a)
    (k : Operand us cs e) :
    Whole (ts ++ Pred.clauseSeparator .and ++ us) (bs ++ cs) (.and a e) := by
  have hops : Operands [ts, us] (bs ++ (cs ++ [])) [a, e] := .cons h (.cons k .nil)
  rw [List.append_nil] at hops
  exact hops.whole .and

section
variable {b : Base} {view : View} {n m : Nat} {r q : Bound (Option Pred)}
  {first second : (Test → Truth) → Option Truth}

theorem Base.Opening.covers_condition (hb : b.Opening) {ts post : Tokens} {cs : List Bind}
    {e : Expr} (hts : ts = b.tokens ++ .key .space :: .key .where :: post) (hw : Whole post cs e)
    {meaning : (Test → Truth) → Option Truth} (hm : ∀ v, meaning v = some (e.truth v)) :
    (Base.mk ts (b.binds ++ cs) true).Covers meaning := by
  refine ⟨b.tokens ++ [.key .space], post, b.binds, cs, e, ?_, rfl, ?_, ?_, hw, hm⟩
  · rw [hts, List.append_assoc]
    rfl
  · intro h
    rcases List.mem_append.mp h with h | h
    · exact hb.noWhere h
    · cases List.mem_singleton.mp h
  · rw [slots_append, hb.balanced]
    rfl

theorem Base.Opening.where_eq (ts x : Tokens) : spaced [ts, key .where, x] =
    ts ++ .key .space :: .key .where :: .key .space :: x := List.append_assoc _ _ _

theorem Base.Opening.restrict (hb : b.Opening) {alone : Bool} (hr : Renders view n alone r first) :
    (b.restrict r).Covers first := by
  obtain ⟨p, bs⟩ := r
  cases p with
  | none =>
    rw [Base.restrict, Base.Covers, hb.unrestricted]
    exact ⟨hb.noWhere, hr.2⟩
  | some p =>
    obtain ⟨e, he, hr⟩ := hr
    rw [Base.restrict, hb.unrestricted]
    exact hb.covers_condition (Base.Opening.where_eq _ p.tokens) he.whole.spaced hr

theorem Base.Opening.restrict_twice (hb : b.Opening) (hr : Renders view n true r first)
    (hq : Renders view m (b.restrict r).hasWhere q second) :
    ((b.restrict r).restrict q).Covers fun v => both (first v) (second v) := by
  obtain ⟨p, bs⟩ := r
  obtain ⟨o, cs⟩ := q
  cases p with
  | none =>
    obtain ⟨hbs, hr⟩ := hr
    have hrestrict : b.restrict (none, bs) = b := by
      rw [Base.restrict, show bs = [] from hbs, List.append_nil]
    have hboth : (fun v => both (first v) (second v)) = second := funext fun v => by rw [hr v, both]
    rw [hrestrict] at hq ⊢
    rw [hboth]
    exact hb.restrict hq
  | some p =>
    cases o with
    | none =>
      obtain ⟨hcs, hq⟩ := hq
      have hrestrict : (b.restrict (some p, bs)).restrict (none, cs) = b.restrict (some p, bs) := by
        rw [Base.restrict, show cs = [] from hcs, List.append_nil]
      have hboth : (fun v => both (first v) (second v)) = first := funext fun v => by
        rw [hq v, both_none]
      rw [hrestrict, hboth]
      exact hb.restrict hr
    | some o =>
      obtain ⟨a, ha, hr⟩ := hr
      have hrestrict : b.restrict (some p, bs) =
          ⟨spaced [b.tokens, key .where, p.tokens], b.binds ++ bs, true⟩ := by
        rw [Base.restrict, hb.unrestricted]
        rfl
      rw [hrestrict] at hq ⊢
      obtain ⟨e, he, hq⟩ := hq
      have htokens : spaced [spaced [b.tokens, key .where, p.tokens], key .and, o.tokens] =
          b.tokens ++ .key .space :: .key .where :: .key .space ::
            (p.tokens ++ Pred.clauseSeparator .and ++ o.tokens) := by
        rw [Base.Opening.where_eq]
        simp only [spaced, join, key, Pred.clauseSeparator, clauseKey, List.append_assoc,
          List.cons_append, List.nil_append]
      have hboth := ha.operand.and_whole he.operand
      rw [Base.restrict, List.append_assoc]
      exact hb.covers_condition htokens hboth.spaced fun v => by rw [hr v, hq v, both]; rfl

end

/-! ## Statements -/

/-- The end of a condition, as the reader knows it. -/
def Closing (ls : List Lexeme) : Prop := ls = [] ∨ ∃ r, ls = .stop :: r ∨ ls = .rparen :: r

theorem read_closing {ls : List Lexeme} (h : Closing ls) (l : Level) :
    read [] l true ls = l.value? := by
  rcases h with rfl | ⟨r, rfl | rfl⟩ <;> rfl

theorem word_mem_fill {t : Token} {ts : Tokens} {bs : List Bind} (h : .word t ∈ fill ts bs) :
    t ∈ ts := by
  fun_induction fill ts bs with
  | case1 => cases h
  | case2 name ts b bs ih =>
    rcases List.mem_cons.mp h with h | h
    · cases h
    · exact List.mem_cons_of_mem _ (ih h)
  | case3 u ts bs _ ih =>
    rcases List.mem_cons.mp h with h | h
    · cases h
      exact List.mem_cons_self
    · exact List.mem_cons_of_mem _ (ih h)

theorem isWhere_items {ts : Tokens} (h : Token.key .where ∉ ts) (bs : List Bind) :
    ∀ i ∈ items ts bs, (!i.isWhere) = true := by
  intro i hi
  cases i with
  | value b => rfl
  | word t =>
    have ht := word_mem_fill (List.mem_filter.mp hi).1
    cases hw : (Item.word t).isWhere with
    | false => rfl
    | true =>
      unfold Item.isWhere at hw
      split at hw
      · next he =>
        cases he
        exact absurd ht h
      · cases hw

theorem condition?_none {st : Statement} (h : Token.key .where ∉ st.tokens) :
    st.condition? = none := by
  have hd := List.dropWhile_eq_nil_iff.mpr (isWhere_items h st.binds)
  rw [Statement.condition?, hd]

theorem condition?_some {st : Statement} {front post : Tokens} {bs cs : List Bind}
    (hts : st.tokens = front ++ .key .where :: post) (hbs : st.binds = bs ++ cs)
    (h : Token.key .where ∉ front) (hslots : slots front = bs.length) :
    st.condition? = some (lexemes (items post cs)) := by
  have hd : (items st.tokens st.binds).dropWhile (!·.isWhere) =
      .word (.key .where) :: items post cs := by
    rw [hts, hbs, items_append hslots, List.dropWhile_append_of_pos (isWhere_items h bs)]
    rfl
  rw [Statement.condition?, hd]

/-- The condition of restricted tokens is still read where further tokens stand around them. -/
theorem Base.Covers.selects {b : Base} {meaning : (Test → Truth) → Option Truth}
    (h : b.Covers meaning) (front back : Tokens) (hf : Bare front) (hb : Token.key .where ∉ back)
    (hc : Closing (lexemes (items back []))) {st : Statement}
    (hts : st.tokens = front ++ b.tokens ++ back) (hbs : st.binds = b.binds) :
    st.Selects meaning ∧ (st.condition? = none ↔ ∀ v, meaning v = none) := by
  cases hw : b.hasWhere with
  | false =>
    rw [Base.Covers, hw] at h
    obtain ⟨hno, hm⟩ := h
    have hnone : st.condition? = none := by
      refine condition?_none fun hmem => ?_
      rw [hts] at hmem
      simp only [List.mem_append] at hmem
      rcases hmem with (hmem | hmem) | hmem
      · exact hf.1 hmem
      · exact hno hmem
      · exact hb hmem
    refine ⟨?_, fun _ => hm, fun _ => hnone⟩
    rw [Statement.Selects, hnone]
    exact hm
  | true =>
    rw [Base.Covers, hw] at h
    obtain ⟨pre, post, bs, cs, e, hbt, hbb, hpre, hslots, hwhole, hm⟩ := h
    have htokens : st.tokens = (front ++ pre) ++ .key .where :: (post ++ back) := by
      rw [hts, hbt]
      simp only [List.append_assoc, List.cons_append]
    have hfront : Token.key .where ∉ front ++ pre := by
      intro hmem
      rcases List.mem_append.mp hmem with hmem | hmem
      · exact hf.1 hmem
      · exact hpre hmem
    have hs : slots (front ++ pre) = bs.length := by
      rw [slots_append, hf.2, Nat.zero_add, hslots]
    have hsome := condition?_some htokens (hbs.trans hbb) hfront hs
    obtain ⟨l, hl, hread⟩ := hwhole.reads
    have hitems := items_append hwhole.balanced back []
    rw [List.append_nil] at hitems
    refine ⟨?_, fun hn => ?_, fun hn => ?_⟩
    · rw [Statement.Selects, hsome]
      refine ⟨e, ?_, hm⟩
      rw [hitems, hread, read_closing hc, hl]
    · cases hsome.symm.trans hn
    · cases (hm fun _ => .no).symm.trans (hn fun _ => .no)

/-! ## When nothing is meant -/

theorem opening_of_derivedSelect {s : Scope} (hn : s.view.native = none) {params : Entries Value}
    {b : Base} (h : base s params = .ok b) : b.Opening := by
  unfold base at h
  rw [hn] at h
  obtain ⟨ts, hts, rfl⟩ := map_eq_ok.mp h
  obtain ⟨hw, hs⟩ := bare_derivedSelect (lift_eq_ok.mp hts)
  exact ⟨rfl, hw, hs⟩

theorem grouped_eq_none {c : Clause} {fs : List Filter} : Filter.grouped c fs = none ↔ fs = [] := by
  match fs with
  | [] => exact ⟨fun _ => rfl, fun _ => rfl⟩
  | [f] => exact ⟨nofun, nofun⟩
  | f :: g :: fs => exact ⟨nofun, nofun⟩

theorem groupTruth_eq_none {c : Clause} {ts : List Truth} : groupTruth c ts = none ↔ ts = [] := by
  cases ts with
  | nil => exact ⟨fun _ => rfl, fun _ => rfl⟩
  | cons t ts => exact ⟨nofun, nofun⟩

mutual
/-- A filter means nothing exactly if it normalises to nothing, whatever the parameters are. -/
theorem filterTruth_eq_none {s : Scope} {v : Test → Truth} (params : Entries Value) (f : Filter) :
    filterTruth s v f = none ↔ f.normalize params = .ok none := by
  match f with
  | .cond c =>
    rw [filterTruth, Filter.normalize]
    refine ⟨nofun, fun h => ?_⟩
    obtain ⟨c', -, hc⟩ := map_eq_ok.mp h
    cases hc
  | .not f =>
    rw [filterTruth, Filter.normalize, Option.map_eq_none_iff,
      filterTruth_eq_none params f]
    constructor
    · intro h
      rw [h]
      rfl
    · intro h
      obtain ⟨r, hr, hn⟩ := map_eq_ok.mp h
      rw [hr, Option.map_eq_none_iff.mp hn]
  | .group c fs =>
    rw [filterTruth, Filter.normalize, groupTruth_eq_none,
      filterTruths_eq_nil params fs]
    constructor
    · intro h
      rw [h]
      rfl
    · intro h
      obtain ⟨gs, hg, hn⟩ := map_eq_ok.mp h
      rw [hg, grouped_eq_none.mp hn]
theorem filterTruths_eq_nil {s : Scope} {v : Test → Truth} (params : Entries Value)
    (fs : List Filter) : filterTruths s v fs = [] ↔ Filter.normalizeAll params fs = .ok [] := by
  match fs with
  | [] => exact ⟨fun _ => rfl, fun _ => rfl⟩
  | f :: fs =>
    rw [filterTruths, Filter.normalizeAll, List.append_eq_nil_iff, Option.toList_eq_nil_iff,
      filterTruth_eq_none params f, filterTruths_eq_nil params fs]
    constructor
    · rintro ⟨hf, hs⟩
      rw [hf, hs]
      rfl
    · intro h
      obtain ⟨r, hr, h⟩ := bind_eq_ok.mp h
      obtain ⟨rs, hrs, h⟩ := bind_eq_ok.mp h
      obtain ⟨hn, hnil⟩ := List.append_eq_nil_iff.mp (Except.ok.inj h)
      rw [hr, hrs, Option.toList_eq_nil_iff.mp hn, hnil]
      exact ⟨rfl, rfl⟩
end

/-! ## What comes behind the condition -/

theorem lexemes_clauseStart {i : Item} (hc : connective i = none) (hs : isClauseStart i = true)
    (r : List Item) : lexemes (i :: r) = [.stop] := by
  rw [lexemes, hc]
  simp only [hs, if_true]

theorem closing_clauseStart {i : Item} (hc : connective i = none) (hs : isClauseStart i = true)
    (r : List Item) : Closing (lexemes (i :: r)) := by
  rw [lexemes_clauseStart hc hs]
  exact .inr ⟨[], .inl rfl⟩

theorem noWhere_page (d : Dialect) (page : Page) : Token.key .where ∉ d.page page := by
  cases d <;> cases page <;>
    simp [Dialect.page, offsetFetch, limitOffset, fetchFirst, clampedInt, spaced, join, key]

def tail (d : Dialect) (s : Scope) (sort : List SortField) (page : Page) : Tokens :=
  .key .space :: spaced (orderBy s.view sort ++ [d.page page])

theorem closing_tail (d : Dialect) (s : Scope) (sort : List SortField) (page : Page) :
    Closing (lexemes (items (tail d s sort page) [])) := by
  unfold tail orderBy
  split
  · cases d <;> cases page <;> exact closing_clauseStart rfl rfl _
  · exact closing_clauseStart (i := .word (.key .orderBy)) rfl rfl _

theorem noWhere_tail (d : Dialect) (s : Scope) (sort : List SortField) (page : Page) :
    Token.key .where ∉ tail d s sort page := by
  have hitem : ∀ f : SortField, Bare (orderItem s.view f) := by
    intro f
    refine Bare.spaced fun ts h => ?_
    simp only [List.mem_cons, List.not_mem_nil, or_false] at h
    rcases h with rfl | rfl
    · exact bare_raw _
    · cases f.dir <;> exact bare_key (by decide)
  intro h
  rcases List.mem_cons.mp h with h | h
  · cases h
  rcases mem_join h with h | ⟨ts, hts, h⟩
  · cases List.mem_singleton.mp h
  rcases List.mem_append.mp hts with hts | hts
  · unfold orderBy at hts
    split at hts
    · cases hts
    simp only [List.mem_cons, List.not_mem_nil, or_false] at hts
    rcases hts with rfl | rfl
    · cases List.mem_singleton.mp h
    · refine (Bare.commaSeparated fun us hus => ?_).1 h
      obtain ⟨f, -, rfl⟩ := List.mem_map.mp hus
      exact hitem f
  · cases List.mem_singleton.mp hts
    exact noWhere_page d page h

/-! ## Reads, counts and writes -/

def seeks : Page → Bool
  | .offset _ _ => false
  | .seek _ after => !after.isEmpty

theorem seekTruth_eq_none {s : Scope} {v : Test → Truth} {sort : List SortField} {page : Page} :
    seekTruth s v sort page = none ↔ seeks page = false := by
  cases page with
  | offset offset limit => exact ⟨fun _ => rfl, fun _ => rfl⟩
  | seek limit after => cases after <;> simp [seekTruth, seeks]

theorem bind_filterTruth_eq_none {s : Scope} {params : Entries Value} {filter : Option Filter} :
    (∀ v, filter.bind (filterTruth s v) = none) ↔
      ∀ f, filter = some f → f.normalize params = .ok none := by
  cases filter with
  | none => exact ⟨fun _ _ => nofun, fun _ _ => rfl⟩
  | some f =>
    constructor
    · intro h g hg
      cases hg
      exact (filterTruth_eq_none params f).mp (h fun _ => .no)
    · intro h v
      exact (filterTruth_eq_none params f).mpr (h f rfl)

theorem predicate_renders_plain {d : Dialect} {s : Scope} {n : Nat} {wrap : Bool} {f : Filter}
    {r : Bound (Option Pred)} (h : predicate d s n false wrap f = .ok r) :
    Renders s.view n wrap r fun v => filterTruth s v f := by
  have hid : ∀ t : Option Truth, t.map (Truth.flipIf false) = t := fun t => by cases t <;> rfl
  have hf := predicate_renders f h
  simp only [hid] at hf
  exact hf

theorem predicate?_renders {d : Dialect} {s : Scope} {wrap : Bool} {filter : Option Filter}
    {r : Bound (Option Pred)} (h : predicate? d s wrap filter = .ok r) :
    Renders s.view 0 wrap r fun v => filter.bind (filterTruth s v) := by
  cases filter with
  | none =>
    cases h
    exact ⟨rfl, fun _ => rfl⟩
  | some f => exact predicate_renders_plain h

theorem writePredicate_renders {d : Dialect} {s : Scope} {n : Nat} {filter : Option Filter}
    {r : Bound (Option Pred)} (h : writePredicate d s n filter = .ok r) :
    Renders s.view n false r fun v => filter.bind (filterTruth s v) := by
  cases filter with
  | none =>
    cases h
    exact ⟨rfl, fun _ => rfl⟩
  | some f => exact predicate_renders_plain h

theorem select_selects {d : Dialect} {s : Scope} (hn : s.view.native = none)
    {filter : Option Filter} {sort : List SortField} {page : Page} {params : Entries Value}
    {st : Statement} (h : select d s filter sort page params = .ok st) :
    st.Selects (fun v => both (filter.bind (filterTruth s v)) (seekTruth s v sort page)) ∧
      (st.condition? = none ↔
        ∀ v, both (filter.bind (filterTruth s v)) (seekTruth s v sort page) = none) := by
  obtain ⟨⟨b, n⟩, hb, hs⟩ := bind_eq_ok.mp h
  obtain ⟨q, hq, hst⟩ := bind_eq_ok.mp hs
  obtain ⟨o, ho, hf⟩ := bind_eq_ok.mp hb
  obtain ⟨r, hr, hbn⟩ := bind_eq_ok.mp hf
  cases hbn
  cases hst
  have hopen := opening_of_derivedSelect hn ho
  have hcovers := hopen.restrict_twice (predicate?_renders hr) (seek_renders hq)
  refine hcovers.selects [] (tail d s sort page) ⟨by decide, rfl⟩ (noWhere_tail d s sort page)
    (closing_tail d s sort page) ?_ rfl
  show spaced (_ :: (orderBy s.view sort ++ [d.page page])) = _
  cases hts : orderBy s.view sort ++ [d.page page] with
  | nil => cases List.append_eq_nil_iff.mp hts |>.2
  | cons x xs =>
    rw [tail, hts]
    exact List.append_assoc _ _ _

theorem count_selects {d : Dialect} {s : Scope} (hn : s.view.native = none)
    {filter : Option Filter} {params : Entries Value} {st : Statement}
    (h : count d s filter params = .ok st) :
    st.Selects (fun v => filter.bind (filterTruth s v)) ∧
      (st.condition? = none ↔ ∀ v, filter.bind (filterTruth s v) = none) := by
  obtain ⟨⟨b, n⟩, hb, hst⟩ := bind_eq_ok.mp h
  obtain ⟨o, ho, hf⟩ := bind_eq_ok.mp hb
  obtain ⟨r, hr, hbn⟩ := bind_eq_ok.mp hf
  cases hbn
  cases hst
  have hcovers := (opening_of_derivedSelect hn ho).restrict (predicate?_renders hr)
  let front : Tokens := [.key .select, .key .space, .raw "COUNT(1)", .key .space, .key .from,
    .key .space, .key .lparen]
  let back : Tokens := [.key .rparen, .key .space, .raw countAlias]
  refine hcovers.selects front back ⟨by decide, rfl⟩ (by decide) ?_ ?_ rfl
  · rw [show items back [] = .word (.key .rparen) :: [.word (.raw countAlias)] from rfl,
      lexemes_connective (l := .rparen) rfl]
    exact .inr ⟨_, .inr rfl⟩
  · simp only [front, back, spaced, join, key, parenthesized, List.append_assoc, List.cons_append,
      List.nil_append]

theorem slots_setItems (n : Nat) (cs : List ColumnBind) :
    slots (commaSeparated (setItems n cs)) = cs.length := by
  induction cs generalizing n with
  | nil => rfl
  | cons c cs ih =>
    cases cs with
    | nil => rfl
    | cons c' cs =>
      have h : slots (commaSeparated (setItems n (c :: c' :: cs))) =
          1 + slots (commaSeparated (setItems (n + 1) (c' :: cs))) :=
        slots_append (spaced [[.ident c.column], key .eq, [marker (n + 1)]] ++
          [.key .comma, .key .space]) _
      rw [h, ih, Nat.add_comm]
      rfl

theorem noWhere_setItems (n : Nat) (cs : List ColumnBind) :
    ∀ ts ∈ setItems n cs, Token.key .where ∉ ts := by
  induction cs generalizing n with
  | nil => exact fun ts h => absurd h List.not_mem_nil
  | cons c cs ih =>
    intro ts h
    rcases List.mem_cons.mp h with rfl | h
    · simp [spaced, join, key, marker]
    · exact ih (n + 1) ts h

def updateBase (w : Update) : Base :=
  ⟨spaced [key .update, [.ident w.table], key .set, commaSeparated (setItems 0 w.sets)],
    w.sets.map (·.bind), false⟩

theorem opening_updateBase (w : Update) : (updateBase w).Opening := by
  refine ⟨rfl, fun h => ?_, ?_⟩
  · rcases mem_join h with h | ⟨ts, hts, h⟩
    · cases List.mem_singleton.mp h
    simp only [List.mem_cons, List.not_mem_nil, or_false] at hts
    rcases hts with rfl | rfl | rfl | rfl
    · cases List.mem_singleton.mp h
    · cases List.mem_singleton.mp h
    · cases List.mem_singleton.mp h
    · rcases mem_join h with h | ⟨us, hus, h⟩
      · exact absurd h (by decide)
      · exact noWhere_setItems 0 w.sets us hus h
  · have h : slots (updateBase w).tokens = slots (commaSeparated (setItems 0 w.sets)) :=
      (slots_append [.key .update, .key .space, .ident w.table, .key .space, .key .set, .key .space]
        _).trans (Nat.zero_add _)
    rw [h, slots_setItems]
    exact (List.length_map _).symm

def deleteBase (w : Delete) : Base :=
  ⟨spaced [key .delete, key .from, [.ident w.table]], [], false⟩

theorem opening_deleteBase (w : Delete) : (deleteBase w).Opening := by
  obtain ⟨hw, hs⟩ : Bare (deleteBase w).tokens := by
    refine Bare.spaced fun ts h => ?_
    simp only [List.mem_cons, List.not_mem_nil, or_false] at h
    rcases h with rfl | rfl | rfl
    · exact bare_key (by decide)
    · exact bare_key (by decide)
    · exact bare_ident w.table
  exact ⟨rfl, hw, hs⟩

theorem update_cases {d : Dialect} {s : Scope} {w : Update} {st : Statement}
    (h : update d s w = .ok st) : w.sets ≠ [] ∧
      ∃ r, writePredicate d s w.sets.length w.filter = .ok r ∧
        st = ⟨((updateBase w).restrict r).tokens, ((updateBase w).restrict r).binds, .update⟩ := by
  unfold update at h
  by_cases he : w.sets.isEmpty = true
  · rw [if_pos he] at h
    cases h
  · rw [if_neg he] at h
    obtain ⟨⟨p, bs⟩, hp, hst⟩ := bind_eq_ok.mp h
    cases hst
    refine ⟨fun hn => he (by rw [hn]; rfl), ⟨p, bs⟩, hp, ?_⟩
    cases p with
    | none => rfl
    | some p =>
      simp only [Base.restrict, updateBase, whereClause, spaced, join, key, List.append_assoc,
        List.cons_append, List.nil_append, Bool.false_eq_true, if_false]

theorem delete_cases {d : Dialect} {s : Scope} {w : Delete} {st : Statement}
    (h : delete d s w = .ok st) : ∃ r, writePredicate d s 0 w.filter = .ok r ∧
      st = ⟨((deleteBase w).restrict r).tokens, ((deleteBase w).restrict r).binds, .update⟩ := by
  obtain ⟨⟨p, bs⟩, hp, hst⟩ := bind_eq_ok.mp h
  cases hst
  refine ⟨⟨p, bs⟩, hp, ?_⟩
  cases p with
  | none => rfl
  | some p =>
    simp only [Base.restrict, deleteBase, whereClause, spaced, join, key, List.cons_append,
      List.nil_append, Bool.false_eq_true, if_false]

theorem restricted_selects {b : Base} (hb : b.Opening) {d : Dialect} {s : Scope} {n : Nat}
    {filter : Option Filter} {r : Bound (Option Pred)} (hr : writePredicate d s n filter = .ok r)
    (exec : ExecKind) :
    (Statement.mk (b.restrict r).tokens (b.restrict r).binds exec).Selects
        (fun v => filter.bind (filterTruth s v)) ∧
      ((Statement.mk (b.restrict r).tokens (b.restrict r).binds exec).condition? = none ↔
        ∀ v, filter.bind (filterTruth s v) = none) := by
  have hcovers := hb.restrict (writePredicate_renders hr)
  refine hcovers.selects [] [] ⟨by decide, rfl⟩ (by decide) ?_ ?_ rfl
  · exact .inl (by rw [show items [] [] = [] from rfl, lexemes])
  · rw [List.nil_append, List.append_nil]

/-- The condition of every statement that is compiled for a filter means what the filter means,
read with the precedence of SQL: of a read together with its seek page, of a count, of an update
and of a deletion. There is no condition exactly if the filter comes to nothing and no page is
sought. -/
theorem statement_selects (d : Dialect) (s : Scope) (params : Entries Value)
    (filter : Option Filter) (hn : s.view.native = none) :
    (∀ sort page st, select d s filter sort page params = .ok st →
      st.Selects (fun v => both (filter.bind (filterTruth s v)) (seekTruth s v sort page)) ∧
        (st.condition? = none ↔
          (∀ f, filter = some f → f.normalize params = .ok none) ∧ seeks page = false)) ∧
    (∀ st, count d s filter params = .ok st →
      st.Selects (fun v => filter.bind (filterTruth s v)) ∧
        (st.condition? = none ↔ ∀ f, filter = some f → f.normalize params = .ok none)) ∧
    (∀ (w : Update) st, w.filter = filter → write d s (.update w) = .ok st →
      st.Selects (fun v => filter.bind (filterTruth s v)) ∧
        (st.condition? = none ↔ ∀ f, filter = some f → f.normalize params = .ok none)) ∧
    (∀ (w : Delete) st, w.filter = filter → write d s (.delete w) = .ok st →
      st.Selects (fun v => filter.bind (filterTruth s v)) ∧
        (st.condition? = none ↔ ∀ f, filter = some f → f.normalize params = .ok none)) := by
  refine ⟨fun sort page st h => ?_, fun st h => ?_, fun w st hw h => ?_, fun w st hw h => ?_⟩
  · obtain ⟨hsel, hnone⟩ := select_selects hn h
    refine ⟨hsel, hnone.trans ?_⟩
    rw [← bind_filterTruth_eq_none (s := s)]
    constructor
    · intro hv
      exact ⟨fun v => (both_eq_none.mp (hv v)).1,
        seekTruth_eq_none.mp (both_eq_none.mp (hv fun _ => .no)).2⟩
    · intro hv v
      exact both_eq_none.mpr ⟨hv.1 v, seekTruth_eq_none.mpr hv.2⟩
  · obtain ⟨hsel, hnone⟩ := count_selects hn h
    exact ⟨hsel, hnone.trans bind_filterTruth_eq_none⟩
  · obtain ⟨-, r, hr, rfl⟩ := update_cases h
    subst hw
    obtain ⟨hsel, hnone⟩ := restricted_selects (opening_updateBase w) hr .update
    exact ⟨hsel, hnone.trans bind_filterTruth_eq_none⟩
  · obtain ⟨r, hr, rfl⟩ := delete_cases h
    subst hw
    obtain ⟨hsel, hnone⟩ := restricted_selects (opening_deleteBase w) hr .update
    exact ⟨hsel, hnone.trans bind_filterTruth_eq_none⟩

def people : Scope :=
  let entity : Entity := ⟨"Person", .entity, some "people",
    [("age", .ofType (.scalar "int")), ("name", .ofType (.scalar "string"))], []⟩
  ⟨⟨[("Person", entity)], []⟩, entity,
    ⟨"people", [("age", .direct "age"), ("name", .direct "name")], none⟩⟩

/-- Everybody but those of age and those without a name; the empty group is dropped. -/
def minorsByName : Filter :=
  .not (.group .or [.cond (.of "age" .gt (.int 17)), .group .and [], .cond (.of "name" .eq .null)])

theorem people_statements_select :
    (∃ st, select .postgres people (some minorsByName) [⟨"age", .asc⟩]
        (.seek 2 [("age", .int 5)]) [] = .ok st ∧
      st.text = "SELECT age AS \"age\", name AS \"name\" FROM \"people\" WHERE " ++
        "(NOT (age > :b1) AND NOT (name IS NULL)) AND (age > :b2) ORDER BY age ASC LIMIT 2" ∧
      st.Selects (fun v => both (filterTruth people v minorsByName)
        (some (laterTruth people v [("age", .int 5)] [⟨"age", .asc⟩])))) ∧
    (∃ st, count .ansi people (some minorsByName) [] = .ok st ∧
      st.Selects (fun v => filterTruth people v minorsByName)) ∧
    (∃ st, write .ansi people (.update ⟨"people", [⟨"age", ⟨.int 3, "int"⟩⟩], some minorsByName⟩) =
        .ok st ∧ st.Selects (fun v => filterTruth people v minorsByName)) ∧
    (∃ st, write .ansi people (.delete ⟨"people", none⟩) = .ok st ∧ st.condition? = none) := by
  refine ⟨⟨_, rfl, by decide +kernel, ?_⟩, ⟨_, rfl, ?_⟩, ⟨_, rfl, ?_⟩, ⟨_, rfl, ?_⟩⟩
  · exact ((statement_selects .postgres people [] (some minorsByName) rfl).1 [⟨"age", .asc⟩]
      (.seek 2 [("age", .int 5)]) _ rfl).1
  · exact ((statement_selects .ansi people [] (some minorsByName) rfl).2.1 _ rfl).1
  · exact ((statement_selects .ansi people [] (some minorsByName) rfl).2.2.1
      ⟨"people", [⟨"age", ⟨.int 3, "int"⟩⟩], some minorsByName⟩ _ rfl rfl).1
  · exact ((statement_selects .ansi people [] none rfl).2.2.2 ⟨"people", none⟩ _ rfl rfl).2.mpr nofun

end Polystore.Sql
