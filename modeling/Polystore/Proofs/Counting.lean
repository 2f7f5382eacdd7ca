import Polystore.Proofs.Documents.Seeking
import Polystore.Proofs.Sql.Clauses

/-! # Counts and pages

A count is compiled apart from the reads it counts for. Both begin in the same way: the count wraps
the text, or ends the pipeline, behind which a page of the read goes on with nothing but its sort
clause and its bounds. -/

namespace Polystore
set_option autoImplicit false

/-! ## Counts in SQL -/

namespace Sql

open Tokens (key spaced commaSeparated parenthesized join)

/-! ### Texts -/

def numberText (n : UInt64) : String := (limitOf n).repr

def orderText (v : View) (sort : List SortField) : String :=
  if sort.isEmpty then ""
  else " ORDER BY " ++
    ", ".intercalate (sort.map fun f => v.refPath f.field ++ " " ++ f.dir.keyword)

def pageWords : Dialect → Page → List String
  | .postgres, .offset offset limit => ["LIMIT", numberText limit, "OFFSET", numberText offset]
  | .postgres, .seek limit _ => ["LIMIT", numberText limit]
  | .ansi, .offset offset limit =>
    ["OFFSET", numberText offset, "ROWS", "FETCH", "FIRST", numberText limit, "ROWS", "ONLY"]
  | .ansi, .seek limit _ => ["FETCH", "FIRST", numberText limit, "ROWS", "ONLY"]

def pageText (d : Dialect) (page : Page) : String := " " ++ " ".intercalate (pageWords d page)

theorem text_append (ts us : Tokens) :
    Tokens.text (ts ++ us) = Tokens.text ts ++ Tokens.text us := by
  rw [Tokens.text, Tokens.chars, List.flatMap_append, String.ofList_append]
  rfl

theorem text_key (k : Keyword) : Tokens.text (key k) = k.text := by
  rw [Tokens.text, Tokens.chars, key, List.flatMap_singleton, Token.chars, String.ofList_toList]

theorem text_raw (s : String) : Tokens.text [.raw s] = s := by
  rw [Tokens.text, Tokens.chars, List.flatMap_singleton, Token.chars, String.ofList_toList]

theorem text_clampedInt (n : UInt64) : Tokens.text (clampedInt n) = numberText n := by
  rw [Tokens.text, Tokens.chars, clampedInt, List.flatMap_singleton, Token.chars, Double.intText,
    String.ofList_toList]
  rfl

theorem text_join (sep : Tokens) (tss : List Tokens) :
    Tokens.text (join sep tss) = (Tokens.text sep).intercalate (tss.map Tokens.text) := by
  fun_induction join sep tss with
  | case1 => rfl
  | case2 ts => rw [List.map_singleton, String.intercalate_singleton]
  | case3 ts rest hne ih =>
    cases rest with
    | nil => exact absurd rfl hne
    | cons us rest =>
      rw [text_append, text_append, ih]
      exact String.intercalate_cons_cons.symm

theorem text_spaced (tss : List Tokens) :
    Tokens.text (spaced tss) = " ".intercalate (tss.map Tokens.text) := text_join _ tss

theorem text_orderItem (v : View) (f : SortField) :
    Tokens.text (orderItem v f) = v.refPath f.field ++ " " ++ f.dir.keyword := by
  have hdir : (dirKey f.dir).text = f.dir.keyword := by cases f.dir <;> rfl
  rw [orderItem, text_spaced, List.map_cons, List.map_singleton, text_raw, text_key, hdir,
    String.intercalate_cons_cons, String.intercalate_singleton]

theorem text_page (d : Dialect) (page : Page) :
    Tokens.text (d.page page) = " ".intercalate (pageWords d page) := by
  cases d <;> cases page <;>
    simp only [Dialect.page, offsetFetch, limitOffset, fetchFirst, text_spaced, List.map_cons,
      List.map_nil, List.cons_append, List.nil_append, text_key, text_clampedInt] <;> rfl

/-- Behind its base a read has its sort clause and its page. -/
theorem text_tail (d : Dialect) (s : Scope) (sort : List SortField) (page : Page) :
    Tokens.text (tail d s sort page) = orderText s.view sort ++ pageText d page := by
  have hspace : Tokens.text (key .space) = " " := text_key .space
  have htail : tail d s sort page = key .space ++ spaced (orderBy s.view sort ++ [d.page page]) :=
    rfl
  rw [htail, text_append, hspace, orderText, orderBy, pageText]
  cases sort.isEmpty with
  | true =>
    rw [if_pos rfl, if_pos rfl, List.nil_append, String.empty_append]
    exact congrArg _ (text_page d page)
  | false =>
    have hitems : (sort.map (orderItem s.view)).map Tokens.text =
        sort.map fun f => s.view.refPath f.field ++ " " ++ f.dir.keyword := by
      rw [List.map_map]
      exact List.map_congr_left fun f _ => text_orderItem s.view f
    have hlist : Tokens.text (commaSeparated (sort.map (orderItem s.view))) =
        ", ".intercalate (sort.map fun f => s.view.refPath f.field ++ " " ++ f.dir.keyword) := by
      rw [commaSeparated, text_join, hitems]
      rfl
    rw [if_neg Bool.false_ne_true, if_neg Bool.false_ne_true, text_spaced]
    simp only [List.cons_append, List.nil_append, List.map_cons, List.map_nil, hlist, text_page,
      text_key, String.intercalate_cons_cons, String.intercalate_singleton]
    simp only [← String.append_assoc]
    rfl

/-! ### Statements -/

variable {d : Dialect} {s : Scope} {filter : Option Filter} {params : Entries Value}

/-- Pages that seek nothing add nothing to the predicate of the filter. -/
theorem seek_of_not_seeks {page : Page} (h : seeks page = false) (n : Nat) (sort : List SortField)
    (hasWhere : Bool) : seek s n sort hasWhere page = .ok (none, []) := by
  cases page with
  | offset offset limit => rfl
  | seek limit after =>
    have hafter : after.isEmpty = true := by
      rw [seeks, Bool.not_eq_false'] at h
      exact h
    rw [seek, if_pos hafter]

theorem select_of_not_seeks {page : Page} (h : seeks page = false) (sort : List SortField) :
    select d s filter sort page params = (filtered d s filter params).map fun (b, _) =>
      ⟨b.tokens ++ tail d s sort page, b.binds, .query⟩ := by
  unfold select
  cases filtered d s filter params with
  | error e => rfl
  | ok r =>
    have hseek := seek_of_not_seeks (s := s) h r.2 sort r.1.hasWhere
    have hrestrict : r.1.restrict (none, []) = r.1 := by rw [Base.restrict, List.append_nil]
    refine bind_eq_ok.mpr ⟨r, rfl, bind_eq_ok.mpr ⟨_, hseek, ?_⟩⟩
    simp only [hrestrict, spaced_tail]

theorem text_count (ts : Tokens) : Tokens.text (spaced [key .select, [.raw "COUNT(1)"], key .from,
    parenthesized ts, [.raw countAlias]]) =
      "SELECT COUNT(1) FROM (" ++ Tokens.text ts ++ ") strata_count" := by
  have hparenthesized : Tokens.text (parenthesized ts) = "(" ++ Tokens.text ts ++ ")" := by
    show Tokens.text (key .lparen ++ ts ++ key .rparen) = _
    rw [text_append, text_append, text_key, text_key]
    rfl
  rw [text_spaced]
  simp only [List.map_cons, List.map_nil, text_key, text_raw, hparenthesized,
    String.intercalate_cons_cons, String.intercalate_singleton]
  have hfront : "SELECT" ++ " " ++ "COUNT(1)" ++ " " ++ "FROM" ++ " " ++ "(" =
      "SELECT COUNT(1) FROM (" := by decide
  have hback : ")" ++ " " ++ countAlias = ") strata_count" := by decide
  rw [← hfront, ← hback]
  simp only [String.append_assoc]
  rfl

theorem count_eq (d : Dialect) (s : Scope) (filter : Option Filter) (params : Entries Value) :
    count d s filter params = (filtered d s filter params).map fun (b, _) =>
      ⟨spaced [key .select, [.raw "COUNT(1)"], key .from, parenthesized b.tokens,
        [.raw countAlias]], b.binds, .query⟩ := by
  unfold count
  cases filtered d s filter params <;> rfl

end Sql

/-! ## Counts of documents -/

namespace Documents

/-- A stage that sorts or bounds what comes to it. -/
def Stage.isPaging : Stage → Bool
  | .sort _ | .skip _ | .limit _ => true
  | _ => false

/-- The collection, the predicate of the filter, and what the view starts from. -/
def opening (s : Scope) (filter : Option Filter) (params : Entries Value) :
    Except Error (String × Document × Base) := do
  let collection ← lift .planning s.source
  let p ← predicate? s filter
  let b ← base s.view params
  .ok (collection, p.getD [], b)

theorem opening_base {s : Scope} {filter : Option Filter} {params : Entries Value}
    {collection : String} {restriction : Document} {b : Base}
    (h : opening s filter params = .ok (collection, restriction, b)) :
    base s.view params = .ok b := by
  obtain ⟨_, -, h⟩ := bind_eq_ok.mp h
  obtain ⟨_, -, h⟩ := bind_eq_ok.mp h
  obtain ⟨b', hb, h⟩ := bind_eq_ok.mp h
  cases h
  exact hb

theorem nativeStages_native {viewId : String} {params : Entries Value} {js : List Json}
    {stages : List Stage} (h : nativeStages viewId params js = .ok stages) :
    ∀ stage ∈ stages, stage.isPaging = false := by
  induction js generalizing stages with
  | nil =>
    cases h
    exact nofun
  | cons j js ih =>
    obtain ⟨d, -, h⟩ := bind_eq_ok.mp h
    obtain ⟨rest, hrest, h⟩ := bind_eq_ok.mp h
    cases h
    exact List.forall_mem_cons.mpr ⟨rfl, ih hrest⟩

theorem base_native {v : View} {params : Entries Value} {stages : List Stage}
    (h : base v params = .ok (.pipeline stages)) : ∀ stage ∈ stages, stage.isPaging = false := by
  unfold base at h
  cases hnative : v.native with
  | none =>
    rw [hnative] at h
    cases h
  | some q =>
    rw [hnative] at h
    unfold nativeBase at h
    simp only at h
    split at h
    · obtain ⟨stages', hstages, hpipeline⟩ := map_eq_ok.mp h
      cases hpipeline
      exact nativeStages_native hstages
    · split at h
      · cases h
      · obtain ⟨d, -, hfilter⟩ := map_eq_ok.mp h
        cases hfilter

/-- The statement of a count of the documents of a base under a restriction. -/
def countOf (collection : String) (restriction : Document) : Base → Statement
  | .filter d => { Statement.on .count collection with filter := both d restriction }
  | .pipeline stages =>
    { Statement.on .aggregate collection with
      pipeline := stages ++ filterStage restriction ++ [.count countField] }

section
variable {s : Scope} {filter : Option Filter} {sort : List SortField} {page : Page}
  {params : Entries Value}

theorem count_eq : count s filter params =
    (opening s filter params).map fun (collection, restriction, b) =>
      countOf collection restriction b := by
  unfold count opening
  cases lift Error.planning s.source with
  | error e => rfl
  | ok collection =>
    cases predicate? s filter with
    | error e => rfl
    | ok p =>
      cases base s.view params with
      | error e => rfl
      | ok b => cases b <;> rfl

theorem seek_of_not_seeks (h : Sql.seeks page = false) : seek s sort page = .ok none := by
  cases page with
  | offset offset limit => rfl
  | seek limit after =>
    have hafter : after.isEmpty = true := by
      rw [Sql.seeks, Bool.not_eq_false'] at h
      exact h
    rw [seek, if_pos hafter]

theorem both_nil (d : Document) : both d [] = d := by cases d <;> rfl

theorem select_of_not_seeks (h : Sql.seeks page = false) : select s filter sort page params =
    (opening s filter params).map fun (collection, restriction, b) =>
      readOf s.view sort page collection restriction b := by
  unfold select opening
  rw [seek_of_not_seeks h]
  cases lift Error.planning s.source with
  | error e => rfl
  | ok collection =>
    cases predicate? s filter with
    | error e => rfl
    | ok p =>
      cases base s.view params with
      | error e => rfl
      | ok b =>
        have hread : Except.ok (readOf s.view sort page collection (both (p.getD []) []) b) =
            Except.ok (ε := Error) (readOf s.view sort page collection (p.getD []) b) := by
          rw [both_nil]
        refine Eq.trans ?_ hread
        cases b <;> rfl

end

end Documents
/-! ## Agreement -/

/-- A count compiles exactly if the reads it counts for do, whatever they are sorted by and
whichever page they ask for without a row to seek behind; the error is the same else. In SQL the
text of the read is the counted one, followed by its sort clause and its page. In documents the
read has the filter of the count, or the stages in front of the counting one, followed by its sort
keys and its page. -/
theorem count_agrees_with_select (s : Scope) (filter : Option Filter) (params : Entries Value) :
    (∀ d, match Sql.count d s filter params with
      | .error e => ∀ sort page, Sql.seeks page = false →
          Sql.select d s filter sort page params = .error e
      | .ok c => c.exec = .query ∧ ∃ text,
          c.text = "SELECT COUNT(1) FROM (" ++ text ++ ") strata_count" ∧
          ∀ sort page, Sql.seeks page = false → ∃ st,
            Sql.select d s filter sort page params = .ok st ∧ st.exec = .query ∧
            st.text = text ++ Sql.orderText s.view sort ++ Sql.pageText d page ∧
            st.binds = c.binds) ∧
    (match Documents.count s filter params with
      | .error e => ∀ sort page, Sql.seeks page = false →
          Documents.select s filter sort page params = .error e
      | .ok c => ∃ b, Documents.base s.view params = .ok b ∧
          match b with
          | .filter _ => c.command = .count ∧ c.pipeline = [] ∧
              ∀ sort page, Sql.seeks page = false → ∃ st,
                Documents.select s filter sort page params = .ok st ∧ st.command = .find ∧
                st.collection = c.collection ∧ st.filter = c.filter ∧ st.pipeline = []
          | .pipeline _ => c.command = .aggregate ∧ c.filter = [] ∧ ∃ stages,
              (∀ stage ∈ stages, stage.isPaging = false) ∧
              c.pipeline = stages ++ [.count Documents.countField] ∧
              ∀ sort page, Sql.seeks page = false → ∃ st,
                Documents.select s filter sort page params = .ok st ∧ st.command = .aggregate ∧
                st.collection = c.collection ∧ st.filter = [] ∧
                st.pipeline = stages ++ Documents.sortStage (Documents.sortKeys s.view sort) ++
                  Documents.skipStage (Documents.skipped page) ++ [.limit page.limit]) := by
  constructor
  · intro d
    have hselect : ∀ sort page, Sql.seeks page = false → Sql.select d s filter sort page params =
        (Sql.filtered d s filter params).map fun (b, _) =>
          ⟨b.tokens ++ Sql.tail d s sort page, b.binds, .query⟩ :=
      fun sort page h => Sql.select_of_not_seeks h sort
    rw [Sql.count_eq]
    cases hfiltered : Sql.filtered d s filter params with
    | error e =>
      intro sort page hpage
      rw [hselect sort page hpage, hfiltered]
      rfl
    | ok r =>
      refine ⟨rfl, r.1.tokens.text, Sql.text_count r.1.tokens, fun sort page hpage => ?_⟩
      rw [hselect sort page hpage, hfiltered]
      refine ⟨_, rfl, rfl, ?_, rfl⟩
      rw [String.append_assoc, ← Sql.text_tail]
      exact Sql.text_append _ _
  · have hselect : ∀ sort page, Sql.seeks page = false →
        Documents.select s filter sort page params =
          (Documents.opening s filter params).map fun (collection, restriction, b) =>
            Documents.readOf s.view sort page collection restriction b :=
      fun sort page h => Documents.select_of_not_seeks h
    rw [Documents.count_eq]
    cases hopening : Documents.opening s filter params with
    | error e =>
      intro sort page hpage
      rw [hselect sort page hpage, hopening]
      rfl
    | ok r =>
      obtain ⟨collection, restriction, b⟩ := r
      rw [hopening] at hselect
      have hbase := Documents.opening_base hopening
      refine ⟨b, hbase, ?_⟩
      cases b with
      | filter d =>
        refine ⟨rfl, rfl, fun sort page hpage => ?_⟩
        exact ⟨_, hselect sort page hpage, rfl, rfl, rfl, rfl⟩
      | pipeline stages =>
        refine ⟨rfl, rfl, stages ++ Documents.filterStage restriction, ?_, rfl,
          fun sort page hpage => ⟨_, hselect sort page hpage, rfl, rfl, rfl, rfl⟩⟩
        refine List.forall_mem_append.mpr ⟨Documents.base_native hbase, ?_⟩
        rw [Documents.filterStage]
        split
        · exact nofun
        · exact List.forall_mem_singleton.mpr rfl

def ofAge : Filter := .cond (.of "age" .ge (.int 18))

/-- A view of every name of a person apart. -/
def names : Scope :=
  { Sql.people with view := { Sql.people.view with
      native := some ⟨some (.arr [.obj [("$unwind", .str "$name")]]), none, false⟩ } }

theorem ofAge_counted :
    (∃ c st text, Sql.count .postgres Sql.people (some ofAge) [] = .ok c ∧
      c.text = "SELECT COUNT(1) FROM (" ++ text ++ ") strata_count" ∧
      Sql.select .postgres Sql.people (some ofAge) [⟨"age", .desc⟩] (.offset 20 10) [] = .ok st ∧
      st.text = text ++ " ORDER BY age DESC" ++ " LIMIT 10 OFFSET 20" ∧ st.binds = c.binds) ∧
    (∃ c st stages, Documents.count names (some ofAge) [] = .ok c ∧
      c.pipeline = stages ++ [.count "n"] ∧
      Documents.select names (some ofAge) [⟨"age", .desc⟩] (.offset 20 10) [] = .ok st ∧
      st.pipeline = stages ++ [.sort [("age", .desc)]] ++ [.skip 20] ++ [.limit 10]) := by
  have horder : Sql.orderText Sql.people.view [⟨"age", .desc⟩] = " ORDER BY age DESC" := by
    decide +kernel
  have hpage : Sql.pageText .postgres (.offset 20 10) = " LIMIT 10 OFFSET 20" := by decide +kernel
  obtain ⟨-, text, htext, hreads⟩ :=
    (count_agrees_with_select Sql.people (some ofAge) []).1 .postgres
  obtain ⟨st, hst, -, hread, hbinds⟩ := hreads [⟨"age", .desc⟩] (.offset 20 10) rfl
  rw [horder, hpage] at hread
  refine ⟨⟨_, st, text, rfl, htext, hst, hread, hbinds⟩, ?_⟩
  obtain ⟨b, hbase, hcount⟩ := (count_agrees_with_select names (some ofAge) []).2
  cases hbase
  obtain ⟨-, -, stages, -, hcounted, hreads⟩ := hcount
  obtain ⟨st, hst, -, -, -, hpipeline⟩ := hreads [⟨"age", .desc⟩] (.offset 20 10) rfl
  exact ⟨_, st, stages, rfl, hcounted, hst, hpipeline⟩

end Polystore
