import Polystore.Proofs.Paging
import Polystore.Proofs.Sql.NativeReading
import Polystore.Proofs.Sql.Where

/-! # The clauses of a read

What a select asks of rows is read behind its base: a condition, the sort clause and the limit. No
keyword that begins a clause is part of a predicate, so the condition ends where the first of them
stands. A condition that the text of the base has of its own goes on behind the base, and both are
read as one. -/

namespace Polystore.Sql
set_option autoImplicit false

open Tokens (key spaced commaSeparated parenthesized join)
open Native (Word Choice lexemesOf)

/-! ## Reading clauses -/

structure Clauses where
  condition : Option Expr
  order : Paging.Order
  limit : Int

/-- The condition of a read, up to the next clause. What the base has of it is read first, whatever
follows; else it begins behind WHERE. -/
def readCondition : Option (List Lexeme) → List Item → Option (Option Expr)
  | some own, is => (read [] .start false (own ++ lexemes is)).map some
  | none, [] => some none
  | none, .word (.key .where) :: r => (read [] .start false (lexemes r)).map some
  | none, i :: _ => if isClauseStart i then some none else none

def direction? : Keyword → Option SortDir
  | .asc => some .asc
  | .desc => some .desc
  | _ => none

def sortItems : List Item → Option (Paging.Order × List Item)
  | .word (.raw e) :: .word (.key k) :: .word (.key .comma) :: r =>
    (direction? k).bind fun dir => (sortItems r).map fun (order, r) => ((e, dir) :: order, r)
  | .word (.raw e) :: .word (.key k) :: r => (direction? k).map fun dir => ([(e, dir)], r)
  | _ => none

def readOrder : List Item → Option (Paging.Order × List Item)
  | .word (.key .orderBy) :: r => sortItems r
  | r => some ([], r)

def readLimit : List Item → Option Int
  | [.word (.key .limit), .word (.litInt n)] => some n
  | [.word (.key .fetch), .word (.key .first), .word (.litInt n), .word (.key .rows),
      .word (.key .only)] => some n
  | _ => none

def clauses? (own : Option (List Lexeme)) (is : List Item) : Option Clauses :=
  (readCondition own is).bind fun condition =>
    (readOrder (is.dropWhile (!isClauseStart ·))).bind fun (order, r) =>
      (readLimit r).map fun limit => ⟨condition, order, limit⟩

/-- The words of the condition that the text of a base has of its own. A base that is made from a
mapping has none. -/
def Base.ownWords? (b : Base) : Option (Option (List Word)) :=
  match b.tokens with
  | [.raw text] => Native.ownWords? text
  | _ => some none

/-- The condition of the base, or that it has none. -/
structure Base.Own (b : Base) (p : Option Choice) : Prop where
  words : b.ownWords? = some (p.map Choice.words)
  proper : ∀ c ∈ p, c.Proper

/-- Read on from its base, the statement has these clauses. The tests of the base go by name. -/
def Statement.Continues (name : List Word → Test) (st : Statement) (b : Base) (c : Clauses) :
    Prop :=
  ∃ own ts bs, b.ownWords? = some own ∧ st.tokens = b.tokens ++ ts ∧ st.binds = b.binds ++ bs ∧
    clauses? (own.map (lexemesOf name .front)) (items ts bs) = some c

/-- No token begins a clause. -/
def Plain (ts : Tokens) : Prop := ∀ t ∈ ts, isClauseStart (.word t) = false

section
variable {ts us : Tokens} {tss : List Tokens}

theorem plain_append : Plain (ts ++ us) ↔ Plain ts ∧ Plain us := List.forall_mem_append

theorem Plain.join {sep : Tokens} (hsep : Plain sep) (h : ∀ ts ∈ tss, Plain ts) :
    Plain (join sep tss) := by
  intro t ht
  rcases mem_join ht with ht | ⟨ts, hts, ht⟩
  · exact hsep t ht
  · exact h ts hts t ht

theorem plain_key {k : Keyword} (h : isClauseStart (.word (.key k)) = false) : Plain (key k) := by
  intro t ht
  rw [List.mem_singleton.mp ht]
  exact h

theorem plain_raw (e : String) : Plain [.raw e] := by
  intro t ht
  rw [List.mem_singleton.mp ht]
  rfl

theorem plain_marker (n : Nat) : Plain [marker n] := by
  intro t ht
  rw [List.mem_singleton.mp ht]
  rfl

theorem plain_clauseSeparator (c : Clause) : Plain (Pred.clauseSeparator c) := by
  have hspace : Plain [.key .space] := plain_key rfl
  have hkey : Plain [.key (clauseKey c)] := plain_key (by cases c <;> rfl)
  exact plain_append.mpr ⟨hspace, plain_append.mpr ⟨hkey, hspace⟩⟩

theorem Plain.spaced (h : ∀ ts ∈ tss, Plain ts) : Plain (spaced tss) :=
  Plain.join (plain_key rfl) h

theorem Plain.parenthesized (h : Plain ts) : Plain (parenthesized ts) :=
  List.forall_mem_append.mpr ⟨List.forall_mem_cons.mpr ⟨rfl, h⟩, plain_key rfl⟩

theorem plain_markers (n : Nat) (bs : List Bind) :
    Plain (commaSeparated (markersAfter n bs)) := by
  refine Plain.join (plain_append.mpr ⟨plain_key (k := .comma) rfl, plain_key (k := .space) rfl⟩) ?_
  induction bs generalizing n with
  | nil => exact nofun
  | cons b bs ih => exact List.forall_mem_cons.mpr ⟨plain_marker (n + 1), ih (n + 1)⟩

end

theorem plain_comparison {op : Keyword} (h : op ∈ comparisons) :
    isClauseStart (.word (.key op)) = false := by
  revert op
  decide

section
variable {view : View} {n : Nat}

theorem Leaf.plain {ts : Tokens} {bs : List Bind} {e : Expr} (h : Leaf view n ts bs e) :
    Plain ts := by
  have hraw := fun path => plain_raw (view.refPath path)
  cases h with
  | constant b =>
    intro t ht
    rw [List.mem_singleton.mp ht]
    rfl
  | isNull path =>
    have hnull : Plain (key .isNull) := plain_key rfl
    exact Plain.spaced (by simp [hraw, hnull])
  | isNotNull path =>
    have hnull : Plain (key .isNotNull) := plain_key rfl
    exact Plain.spaced (by simp [hraw, hnull])
  | compare path op b h =>
    exact Plain.spaced (by simp [hraw, plain_marker, plain_key (plain_comparison h)])
  | between path lo hi =>
    have hbetween : Plain (key .between) := plain_key rfl
    have hand : Plain (key .and) := plain_key rfl
    exact Plain.spaced (by simp [hraw, plain_marker, hbetween, hand])
  | among path bs h =>
    have hin : Plain (key .in) := plain_key rfl
    exact Plain.spaced (by simp [hraw, hin, (plain_markers n bs).parenthesized])
  | outside path bs h =>
    have hnot : Plain (key .not) := plain_key rfl
    have hin : Plain (key .in) := plain_key rfl
    exact Plain.spaced (by simp [hraw, hnot, hin, (plain_markers n bs).parenthesized])
  | native path op b h => exact Plain.spaced (by simp [hraw, plain_raw, plain_marker])
  | present path text =>
    have htext : Plain [.litString text] := by
      intro t ht
      rw [List.mem_singleton.mp ht]
      rfl
    have hfound : Plain (Dialect.binary (view.refPath path) "#>" (.litString text)) :=
      Plain.spaced (by simp [hraw, plain_raw, htext])
    have hnull : Plain (key .isNotNull) := plain_key rfl
    exact Plain.spaced (by simp [hfound, hnull])

mutual
theorem Stated.plain {n : Nat} {alone : Bool} {p : Pred} {bs : List Bind} {e : Expr}
    (h : Stated view n alone p bs e) : Plain p.tokens := by
  match h with
  | .leaf h =>
    rw [Pred.tokens, if_neg Bool.false_ne_true]
    exact h.plain
  | .negated h =>
    rw [Pred.tokens, if_pos rfl]
    have hnot : Plain [.key .not, .key .space] :=
      plain_append.mpr ⟨plain_key (k := .not) rfl, plain_key (k := .space) rfl⟩
    exact plain_append.mpr ⟨hnot, h.plain.parenthesized⟩
  | @Stated.group _ _ _ wrapped c ps _ _ _ h _ =>
    have hjoined : Plain (join (Pred.clauseSeparator c) (Pred.tokensAll ps)) :=
      Plain.join (plain_clauseSeparator c) h.plain
    rw [Pred.tokens]
    cases wrapped with
    | true => exact hjoined.parenthesized
    | false => exact hjoined
theorem StatedAll.plain {n : Nat} {alone : Bool} {ps : List Pred} {bs : List Bind}
    {es : List Expr} (h : StatedAll view n alone ps bs es) :
    ∀ ts ∈ Pred.tokensAll ps, Plain ts := by
  match h with
  | .nil => exact nofun
  | .cons h hs => exact List.forall_mem_cons.mpr ⟨h.plain, hs.plain⟩
end

end

/-! ## Conditions behind a base -/

theorem Operands.append {tss uss : List Tokens} {bs cs : List Bind} {es fs : List Expr}
    (h : Operands tss bs es) (k : Operands uss cs fs) :
    Operands (tss ++ uss) (bs ++ cs) (es ++ fs) := by
  induction h with
  | nil => exact k
  | cons h _ ih =>
    rw [List.append_assoc]
    exact .cons h ih

def tokensOf (r : Bound (Option Pred)) : List Tokens := r.1.toList.map Pred.tokens

/-- Predicates behind a base: behind AND where it has a condition already, else behind WHERE. -/
def appended (hasWhere : Bool) : List Tokens → Tokens
  | [] => []
  | ts :: tss =>
    if hasWhere then continued .and (ts :: tss)
    else [.key .space, .key .where, .key .space] ++ join (Pred.clauseSeparator .and) (ts :: tss)

theorem restrict_restrict (b : Base) (r q : Bound (Option Pred)) :
    ((b.restrict r).restrict q).tokens =
        b.tokens ++ appended b.hasWhere (tokensOf r ++ tokensOf q) ∧
      ((b.restrict r).restrict q).binds = b.binds ++ (r.2 ++ q.2) := by
  obtain ⟨p, bs⟩ := r
  obtain ⟨o, cs⟩ := q
  cases p <;> cases o <;> cases hw : b.hasWhere <;>
    simp [Base.restrict, tokensOf, appended, continued, hw, spaced, join, key,
      Pred.clauseSeparator, clauseKey]

theorem Plain.continued {tss : List Tokens} (h : ∀ ts ∈ tss, Plain ts) :
    Plain (continued .and tss) := by
  intro t ht
  obtain ⟨ts, hts, ht⟩ := List.mem_flatMap.mp ht
  exact (plain_append.mpr ⟨plain_clauseSeparator .and, h ts hts⟩) t ht

/-- In front of a further clause the tokens end a condition of a certain truth value, or there is
none where nothing is meant. -/
structure Reads (own : Option (List Lexeme)) (ts : Tokens) (bs : List Bind)
    (meaning : (Test → Truth) → Option Truth) : Prop where
  balanced : slots ts = bs.length
  plain : Plain ts
  reads : ∃ c, (∀ i r, isClauseStart i = true →
    readCondition own (items ts bs ++ i :: r) = some c) ∧ ∀ v, meaning v = c.map (Expr.truth v)

section
variable {ts : Tokens} {tss : List Tokens} {bs : List Bind} {e : Expr} {es : List Expr}
  {meaning : (Test → Truth) → Option Truth}

end

theorem both_groupTruth (ts us : List Truth) :
    both (groupTruth .and ts) (groupTruth .and us) = groupTruth .and (ts ++ us) := by
  cases ts with
  | nil => rfl
  | cons t ts =>
    cases us with
    | nil => rw [List.append_nil, groupTruth, both_none]
    | cons u us => exact congrArg some (Truth.group_append .and (t :: ts) (u :: us)).symm

section
variable {view : View} {n m : Nat} {r q : Bound (Option Pred)}
  {first second : (Test → Truth) → Option Truth}

/-- What stands alone is one operand, or none. -/
theorem Renders.operands (h : Renders view n true r first) :
    ∃ es, Operands (tokensOf r) r.2 es ∧ (∀ us ∈ tokensOf r, Plain us) ∧
      ∀ v, first v = groupTruth .and (es.map (Expr.truth v)) := by
  obtain ⟨p, bs⟩ := r
  cases p with
  | none =>
    obtain ⟨hbs, hm⟩ := h
    cases hbs
    exact ⟨[], .nil, nofun, hm⟩
  | some p =>
    obtain ⟨e, he, hm⟩ := h
    have hops : Operands [p.tokens] (bs ++ []) [e] := .cons he.operand .nil
    rw [List.append_nil] at hops
    refine ⟨[e], hops, List.forall_mem_singleton.mpr he.plain, fun v => ?_⟩
    rw [hm v]
    exact congrArg some (Truth.group_singleton .and _).symm

end

/-! ## Order and limit -/

/-- The sort clause of a read. -/
def orderOf (v : View) (sort : List SortField) : Paging.Order :=
  sort.map fun f => (v.refPath f.field, f.dir)

theorem items_orderItem (v : View) (f : SortField) : items (orderItem v f) [] =
    [.word (.raw (v.refPath f.field)), .word (.key (dirKey f.dir))] := by
  obtain ⟨field, dir⟩ := f
  cases dir <;> rfl

theorem slots_orderItem (v : View) (f : SortField) : slots (orderItem v f) = 0 := by
  obtain ⟨field, dir⟩ := f
  cases dir <;> rfl

theorem direction?_dirKey (dir : SortDir) : direction? (dirKey dir) = some dir := by
  cases dir <;> rfl

theorem sortItems_items (v : View) (f : SortField) (fs : List SortField) {us : Tokens}
    (hus : ∀ r, items us [] ≠ .word (.key .comma) :: r) :
    sortItems (items (commaSeparated ((f :: fs).map (orderItem v)) ++ us) []) =
      some (orderOf v (f :: fs), items us []) := by
  induction fs generalizing f with
  | nil =>
    show sortItems (items (orderItem v f ++ us) []) = _
    rw [items_append_of_slots _ (slots_orderItem v f), items_orderItem, List.cons_append,
      List.singleton_append, sortItems, direction?_dirKey]
    · rfl
    · exact hus
  | cons g fs ih =>
    have hcons : commaSeparated ((f :: g :: fs).map (orderItem v)) ++ us =
        orderItem v f ++ ([.key .comma, .key .space] ++
          (commaSeparated ((g :: fs).map (orderItem v)) ++ us)) := by
      show (orderItem v f ++ [.key .comma, .key .space] ++ commaSeparated _) ++ us = _
      rw [List.append_assoc, List.append_assoc]
    have hcomma : items [.key .comma, .key .space] [] = [.word (.key .comma)] := rfl
    rw [hcons, items_append_of_slots _ (slots_orderItem v f),
      items_append_of_slots [.key .comma, .key .space] rfl, items_orderItem, hcomma]
    simp only [List.cons_append, List.nil_append]
    rw [sortItems, direction?_dirKey, Option.bind_some, ih]
    rfl

/-- How many rows a page holds at most. -/
def limitOf (limit : UInt64) : Int := (Number.clamp64 limit.toNat).toInt

theorem items_page (d : Dialect) (limit : UInt64) (after : Entries Value) :
    (∃ i r, items (d.page (.seek limit after)) [] = i :: r ∧ isClauseStart i = true ∧
      i ≠ .word (.key .orderBy) ∧ i ≠ .word (.key .comma)) ∧
    readLimit (items (d.page (.seek limit after)) []) = some (limitOf limit) := by
  cases d with
  | ansi => exact ⟨⟨_, _, rfl, rfl, nofun, nofun⟩, rfl⟩
  | postgres => exact ⟨⟨_, _, rfl, rfl, nofun, nofun⟩, rfl⟩

theorem tail_clauses (d : Dialect) (s : Scope) (sort : List SortField) (limit : UInt64)
    (after : Entries Value) : ∃ i r, items (tail d s sort (.seek limit after)) [] = i :: r ∧
      isClauseStart i = true ∧ ∃ rest, readOrder (i :: r) = some (orderOf s.view sort, rest) ∧
        readLimit rest = some (limitOf limit) := by
  obtain ⟨⟨i, r, hpage, hstart, horder, hcomma⟩, hlimit⟩ := items_page d limit after
  cases sort with
  | nil =>
    refine ⟨i, r, ?_, hstart, items (d.page (.seek limit after)) [], ?_, hlimit⟩
    · exact hpage
    · rw [hpage, readOrder]
      · rfl
      · intro q hq
        exact horder (List.cons.inj hq).1
  | cons f fs =>
    have htail : tail d s (f :: fs) (.seek limit after) =
        [.key .space, .key .orderBy, .key .space] ++
          (commaSeparated ((f :: fs).map (orderItem s.view)) ++
            ([.key .space] ++ d.page (.seek limit after))) := by
      simp only [tail, orderBy, List.isEmpty_cons, spaced, join, key, List.append_assoc,
        List.cons_append, List.nil_append, Bool.false_eq_true, if_false]
    have hspace : items ([.key .space] ++ d.page (.seek limit after)) [] =
        items (d.page (.seek limit after)) [] := rfl
    have hnext : ∀ q, items ([.key .space] ++ d.page (.seek limit after)) [] ≠
        .word (.key .comma) :: q := by
      intro q hq
      rw [hspace, hpage] at hq
      exact hcomma (List.cons.inj hq).1
    have hsort := sortItems_items s.view f fs hnext
    rw [htail]
    refine ⟨.word (.key .orderBy), _, rfl, rfl, _, hsort, ?_⟩
    rw [hspace]
    exact hlimit

/-- Behind a condition a read goes on with its sort clause and its limit. -/
theorem Reads.clauses {own : Option (List Lexeme)} {ts : Tokens} {bs : List Bind}
    {meaning : (Test → Truth) → Option Truth} (h : Reads own ts bs meaning) (d : Dialect)
    (s : Scope) (sort : List SortField) (limit : UInt64) (after : Entries Value) :
    ∃ c, clauses? own (items (ts ++ tail d s sort (.seek limit after)) bs) = some c ∧
      c.order = orderOf s.view sort ∧ c.limit = limitOf limit ∧
      ∀ v, meaning v = c.condition.map (Expr.truth v) := by
  obtain ⟨condition, hread, hm⟩ := h.reads
  obtain ⟨i, r, htail, hstart, rest, horder, hlimit⟩ := tail_clauses d s sort limit after
  have hitems := items_append h.balanced (tail d s sort (.seek limit after)) []
  rw [List.append_nil, htail] at hitems
  have hplain : ∀ j ∈ items ts bs, (!isClauseStart j) = true := by
    intro j hj
    cases j with
    | value b => rfl
    | word t => rw [h.plain t (word_mem_fill (List.mem_filter.mp hj).1)]; rfl
  have hstop : ¬(!isClauseStart i) = true := by
    rw [hstart]
    exact Bool.false_ne_true
  have hdrop : (i :: r).dropWhile (!isClauseStart ·) = i :: r := List.dropWhile_cons_of_neg hstop
  refine ⟨⟨condition, orderOf s.view sort, limitOf limit⟩, ?_, rfl, rfl, hm⟩
  rw [hitems, clauses?, List.dropWhile_append_of_pos hplain, hdrop, hread i r hstart,
    Option.bind_some, horder, Option.bind_some]
  show (readLimit rest).map _ = _
  rw [hlimit]
  rfl

/-! ## Bases of native texts -/

/-- A text without markers and without a projection beside it. -/
theorem base_native {s : Scope} {params : Entries Value} {text sql : String} {hasWhere : Bool}
    (hquery : s.view.native = some ⟨some (.str text), none, false⟩)
    (hblank : Text.isBlankText text = false) (hnative : nativeText text "*" = (sql, hasWhere))
    (hscan : scan sql = []) : base s params = .ok ⟨[.raw sql], [], hasWhere⟩ := by
  simp only [base, hquery, nativeBase, NativeQuery.sqlText?, NativeQuery.projectionText?, Json.str?,
    Option.bind_some, Option.bind_none, Option.filter_some, Option.filter_none, Option.getD_none,
    hblank, Bool.not_false, if_true, hnative, bindsFor, hscan, bindsOf, lift, Except.map]

/-! ## Selects -/

section
variable {d : Dialect} {s : Scope} {filter : Option Filter} {sort : List SortField}
  {page : Page} {limit : UInt64} {after : Entries Value} {params : Entries Value}

theorem spaced_tail (d : Dialect) (s : Scope) (sort : List SortField) (page : Page) (ts : Tokens) :
    spaced ([ts] ++ orderBy s.view sort ++ [d.page page]) = ts ++ tail d s sort page := by
  have hsome : orderBy s.view sort ++ [d.page page] ≠ [] := List.concat_ne_nil _ _
  rw [List.append_assoc, tail]
  cases hts : orderBy s.view sort ++ [d.page page] with
  | nil => exact absurd hts hsome
  | cons x xs =>
    show ts ++ [.key .space] ++ join _ _ = _
    rw [List.append_assoc]
    rfl

theorem select_eq_ok {st : Statement} :
    select d s filter sort page params = .ok st ↔
      ∃ b r q, base s params = .ok b ∧ predicate? d s true filter = .ok r ∧
        seek s r.2.length sort (b.restrict r).hasWhere page = .ok q ∧
        st = ⟨((b.restrict r).restrict q).tokens ++ tail d s sort page,
          ((b.restrict r).restrict q).binds, .query⟩ := by
  constructor
  · intro h
    obtain ⟨⟨b', n⟩, hfiltered, h⟩ := bind_eq_ok.mp h
    obtain ⟨q, hq, hst⟩ := bind_eq_ok.mp h
    obtain ⟨b, hb, hfiltered⟩ := bind_eq_ok.mp hfiltered
    obtain ⟨r, hr, hbn⟩ := bind_eq_ok.mp hfiltered
    cases hbn
    cases hst
    refine ⟨b, r, q, hb, hr, hq, ?_⟩
    rw [spaced_tail]
  · rintro ⟨b, r, q, hb, hr, hq, rfl⟩
    have hfiltered : filtered d s filter params = .ok (b.restrict r, r.2.length) :=
      bind_eq_ok.mpr ⟨b, hb, bind_eq_ok.mpr ⟨r, hr, rfl⟩⟩
    refine bind_eq_ok.mpr ⟨_, hfiltered, bind_eq_ok.mpr ⟨q, hq, ?_⟩⟩
    rw [← spaced_tail]

end
end Polystore.Sql
