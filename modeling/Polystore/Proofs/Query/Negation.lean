import Mathlib.Data.List.Chain
import Polystore.Proofs.Documents.Matching
import Polystore.Proofs.Sql.Where

/-! # Negations

A negation may stand in front of a filter or be pushed to its conditions by hand: what is written
for the filter is the same, down to the markers, the binds and the error. In what is written, no
negation is applied to another one. -/

namespace Polystore
set_option autoImplicit false

open Sql.Tokens (key spaced commaSeparated parenthesized join)

/-! ## Pushing a negation down -/

namespace Filter

mutual
/-- The negation of a filter, with every group turned and every condition negated. -/
def pushNot : Filter → Filter
  | cond c => cond c.negate
  | not f => f
  | group c fs => group c.flip (pushNotAll fs)
def pushNotAll : List Filter → List Filter
  | [] => []
  | f :: fs => f.pushNot :: pushNotAll fs
end

theorem length_pushNotAll (fs : List Filter) : (pushNotAll fs).length = fs.length := by
  induction fs with
  | nil => rfl
  | cons f fs ih => rw [pushNotAll, List.length_cons, List.length_cons, ih]

end Filter

theorem Clause.flip_of_flip (c : Clause) (negate : Bool) :
    (if negate then c.flip.flip else c.flip) = if !negate then c.flip else c := by
  cases c <;> cases negate <;> rfl

theorem Condition.negated_negate (c : Condition) (negate : Bool) :
    (c.negate.negated ^^ negate) = (c.negated ^^ !negate) := by
  rw [Condition.negate, Bool.not_xor, Bool.xor_not]

namespace Sql

theorem condition_negate (d : Dialect) (s : Scope) (n : Nat) (c : Condition) (negate : Bool) :
    condition d s n c.negate negate = condition d s n c (!negate) := by
  unfold condition
  rw [Condition.negated_negate]
  rfl

mutual
theorem predicate_pushNot (d : Dialect) (s : Scope) (n : Nat) (negate wrap : Bool) (f : Filter) :
    predicate d s n negate wrap f.pushNot = predicate d s n (!negate) wrap f := by
  match f with
  | .cond c => rw [Filter.pushNot, predicate, predicate, condition_negate]
  | .not f => rw [Filter.pushNot, predicate, Bool.not_not]
  | .group c fs =>
    rw [Filter.pushNot, predicate, predicate, predicates_pushNot, Filter.length_pushNotAll,
      Clause.flip_of_flip]
theorem predicates_pushNot (d : Dialect) (s : Scope) (n : Nat) (negate wrap : Bool)
    (fs : List Filter) :
    predicates d s n negate wrap (Filter.pushNotAll fs) = predicates d s n (!negate) wrap fs := by
  match fs with
  | [] => rw [Filter.pushNotAll, predicates, predicates]
  | f :: fs =>
    have htail := fun m => predicates_pushNot d s m negate wrap fs
    simp only [Filter.pushNotAll, predicates, predicate_pushNot d s n negate wrap f, htail]
end

end Sql

namespace Documents

theorem condition_negate (s : Scope) (c : Condition) (negate : Bool) :
    condition s c.negate negate = condition s c (!negate) := by
  unfold condition
  rw [Condition.negated_negate]
  rfl

mutual
theorem predicate_pushNot (s : Scope) (negate : Bool) (f : Filter) :
    predicate s negate f.pushNot = predicate s (!negate) f := by
  match f with
  | .cond c => rw [Filter.pushNot, predicate, predicate, condition_negate]
  | .not f => rw [Filter.pushNot, predicate, Bool.not_not]
  | .group c fs =>
    rw [Filter.pushNot, predicate, predicate, predicates_pushNot, Clause.flip_of_flip]
theorem predicates_pushNot (s : Scope) (negate : Bool) (fs : List Filter) :
    predicates s negate (Filter.pushNotAll fs) = predicates s (!negate) fs := by
  match fs with
  | [] => rw [Filter.pushNotAll, predicates, predicates]
  | f :: fs =>
    rw [Filter.pushNotAll, predicates, predicates, predicate_pushNot s negate f,
      predicates_pushNot s negate fs]
end

end Documents

/-! ## Filters that are written alike -/

/-- The same is written for two filters, or the same error given: behind any number of markers,
negated from outside or not, with parentheses or without, in SQL and in documents. -/
structure WrittenAlike (s : Scope) (f g : Filter) : Prop where
  sql : ∀ d n negate wrap, Sql.predicate d s n negate wrap f = Sql.predicate d s n negate wrap g
  documents : ∀ negate, Documents.predicate s negate f = Documents.predicate s negate g

theorem writtenAlike_pushNot (s : Scope) (f : Filter) : WrittenAlike s (.not f) f.pushNot where
  sql d n negate wrap := by rw [Sql.predicate, Sql.predicate_pushNot]
  documents negate := by rw [Documents.predicate, Documents.predicate_pushNot]

theorem writtenAlike_not_not (s : Scope) (f : Filter) : WrittenAlike s (.not (.not f)) f where
  sql d n negate wrap := by rw [Sql.predicate, Sql.predicate, Bool.not_not]
  documents negate := by rw [Documents.predicate, Documents.predicate, Bool.not_not]

section
variable {s : Scope} {f g : Filter}

/-- Reads and counts under filters that are written alike are the same statements. -/
theorem WrittenAlike.reads (h : WrittenAlike s f g) (sort : List SortField) (page : Page)
    (params : Entries Value) :
    (∀ d, Sql.select d s (some f) sort page params = Sql.select d s (some g) sort page params ∧
      Sql.count d s (some f) params = Sql.count d s (some g) params) ∧
    Documents.select s (some f) sort page params = Documents.select s (some g) sort page params ∧
    Documents.count s (some f) params = Documents.count s (some g) params := by
  have hsql : ∀ d, Sql.predicate? d s true (some f) = Sql.predicate? d s true (some g) :=
    fun d => h.sql d 0 false true
  have hdocuments : Documents.predicate? s (some f) = Documents.predicate? s (some g) :=
    h.documents false
  refine ⟨fun d => ⟨?_, ?_⟩, ?_, ?_⟩
  · rw [Sql.select, Sql.select, Sql.filtered, Sql.filtered, hsql]
  · rw [Sql.count, Sql.count, Sql.filtered, Sql.filtered, hsql]
  · rw [Documents.select, Documents.select, hdocuments]
  · rw [Documents.count, Documents.count, hdocuments]

/-- So are updates and deletions. -/
theorem WrittenAlike.writes (h : WrittenAlike s f g) (table : String) (sets : List ColumnBind) :
    (∀ d, Sql.update d s ⟨table, sets, some f⟩ = Sql.update d s ⟨table, sets, some g⟩ ∧
      Sql.delete d s ⟨table, some f⟩ = Sql.delete d s ⟨table, some g⟩) ∧
    Documents.update s ⟨table, sets, some f⟩ = Documents.update s ⟨table, sets, some g⟩ ∧
    Documents.delete s ⟨table, some f⟩ = Documents.delete s ⟨table, some g⟩ := by
  have hsql : ∀ d n, Sql.writePredicate d s n (some f) = Sql.writePredicate d s n (some g) :=
    fun d n => h.sql d n false false
  have hdocuments : Documents.whereDocument s (some f) = Documents.whereDocument s (some g) :=
    congrArg (Except.map _) (h.documents false)
  refine ⟨fun d => ⟨?_, ?_⟩, ?_, ?_⟩
  · simp only [Sql.update, hsql]
  · simp only [Sql.delete, hsql]
  · simp only [Documents.update, Documents.updateDocument, hdocuments]
  · simp only [Documents.delete, hdocuments]

end

/-! ## Negations in SQL -/

namespace Sql

/-- A token that may stand between a NOT and what it is applied to. -/
def Token.isOpening : Token → Bool
  | .key .space | .key .lparen => true
  | _ => false

/-- The tokens without blanks and opening parentheses. -/
def closed (ts : Tokens) : Tokens := ts.filter (!·.isOpening)

/-- No NOT is applied to a NOT right behind it, parentheses or not. -/
def SingleNots (ts : Tokens) : Prop :=
  (closed ts).IsChain fun t u => ¬(t = .key .not ∧ u = .key .not)

/-- Single negations, the last of which is applied to something. -/
structure AppliedNots (ts : Tokens) : Prop where
  single : SingleNots ts
  applied : (closed ts).getLast? ≠ some (.key .not)

section
variable {ts us sep : Tokens} {tss : List Tokens}

theorem appliedNots_of_notMem (h : Token.key .not ∉ ts) : AppliedNots ts where
  single := by
    refine List.Pairwise.isChain (List.pairwise_of_forall_mem_list fun t ht u _ => ?_)
    rintro ⟨rfl, -⟩
    exact h (List.mem_filter.mp ht).1
  applied hlast := h (List.mem_filter.mp (List.mem_of_getLast? hlast)).1

theorem AppliedNots.append (h : AppliedNots ts) (k : AppliedNots us) : AppliedNots (ts ++ us) where
  single := by
    rw [SingleNots, closed, List.filter_append]
    refine List.isChain_append.mpr ⟨h.single, k.single, fun t ht u _ => ?_⟩
    rintro ⟨rfl, -⟩
    exact h.applied ht
  applied := by
    rw [closed, List.filter_append, List.getLast?_append]
    intro hlast
    rcases Option.or_eq_some_iff.mp hlast with hlast | ⟨-, hlast⟩
    · exact k.applied hlast
    · exact h.applied hlast

theorem AppliedNots.join (hsep : AppliedNots sep) (h : ∀ ts ∈ tss, AppliedNots ts) :
    AppliedNots (join sep tss) := by
  fun_induction Tokens.join sep tss with
  | case1 => exact appliedNots_of_notMem List.not_mem_nil
  | case2 ts => exact h ts (List.mem_singleton_self ts)
  | case3 ts rest hne ih =>
    obtain ⟨hts, hrest⟩ := List.forall_mem_cons.mp h
    exact (hts.append hsep).append (ih hrest)

theorem AppliedNots.parenthesized (h : AppliedNots ts) : AppliedNots (parenthesized ts) := by
  have hopen : AppliedNots [.key .lparen] := appliedNots_of_notMem (by decide)
  have hclose : AppliedNots [.key .rparen] := appliedNots_of_notMem (by decide)
  exact (hopen.append h).append hclose

/-- A NOT in front of tokens that begin with something else. -/
theorem AppliedNots.not (h : AppliedNots ts) {t : Token} {rest : Tokens} (hts : ts = t :: rest)
    (ht : t.isOpening = false) (hnot : t ≠ .key .not) :
    AppliedNots (.key .not :: .key .space :: Tokens.parenthesized ts) := by
  have hparenthesized := h.parenthesized
  have hclosed : closed (.key .not :: .key .space :: Tokens.parenthesized ts) =
      .key .not :: closed (Tokens.parenthesized ts) := rfl
  have hhead : ∃ us, closed (Tokens.parenthesized ts) = t :: us := by
    have hopen : (!t.isOpening) = true := by rw [ht, Bool.not_false]
    refine ⟨closed (rest ++ [.key .rparen]), ?_⟩
    rw [hts]
    exact List.filter_cons_of_pos (p := (!Token.isOpening ·)) hopen
  obtain ⟨us, hus⟩ := hhead
  refine ⟨?_, ?_⟩
  · have hchain := hparenthesized.single
    rw [SingleNots, hus] at hchain
    rw [SingleNots, hclosed, hus]
    exact List.isChain_cons_cons.mpr ⟨fun hboth => hnot hboth.2, hchain⟩
  · have hlast := hparenthesized.applied
    rw [hus] at hlast
    rw [hclosed, hus, List.getLast?_cons_cons]
    exact hlast

end

theorem not_notMem_markersAfter (n : Nat) (bs : List Bind) :
    Token.key .not ∉ parenthesized (commaSeparated (markersAfter n bs)) := by
  have hmarkers : ∀ ts ∈ markersAfter n bs, Token.key .not ∉ ts := by
    induction bs generalizing n with
    | nil => exact nofun
    | cons b bs ih =>
      refine List.forall_mem_cons.mpr ⟨?_, ih (n + 1)⟩
      rw [List.mem_singleton]
      exact nofun
  have hlist : Token.key .not ∉ commaSeparated (markersAfter n bs) := by
    intro h
    rcases mem_join h with h | ⟨ts, hts, h⟩
    · exact absurd h (by decide)
    · exact hmarkers ts hts h
  simpa [parenthesized] using hlist

theorem comparisons_ne_not {op : Keyword} (h : op ∈ comparisons) : Keyword.not ≠ op := by
  revert op
  decide

section
variable {view : View} {n : Nat}

/-- A test begins with something else than NOT, and the only NOT in it belongs to an IN. -/
theorem Leaf.appliedNots {ts : Tokens} {bs : List Bind} {e : Expr} (h : Leaf view n ts bs e) :
    AppliedNots ts ∧ ∃ t rest, ts = t :: rest ∧ t.isOpening = false ∧ t ≠ .key .not := by
  have hraw : ∀ text, (Token.raw text).isOpening = false ∧ Token.raw text ≠ .key .not :=
    fun _ => ⟨rfl, nofun⟩
  cases h with
  | constant b => exact ⟨appliedNots_of_notMem (by simp), _, _, rfl, rfl, nofun⟩
  | isNull path => exact ⟨appliedNots_of_notMem (by simp [spaced, join, key]), _, _, rfl, hraw _⟩
  | isNotNull path =>
    exact ⟨appliedNots_of_notMem (by simp [spaced, join, key]), _, _, rfl, hraw _⟩
  | compare path op b h =>
    have hop := comparisons_ne_not h
    exact ⟨appliedNots_of_notMem (by simp [spaced, join, key, marker, hop]), _, _, rfl, hraw _⟩
  | between path lo hi =>
    exact ⟨appliedNots_of_notMem (by simp [spaced, join, key, marker]), _, _, rfl, hraw _⟩
  | among path bs h =>
    have hlist := not_notMem_markersAfter n bs
    exact ⟨appliedNots_of_notMem (by simp [spaced, join, key, hlist]), _, _, rfl, hraw _⟩
  | outside path bs h =>
    have hfront : AppliedNots [.raw (view.refPath path), .key .space, .key .not, .key .space,
        .key .in, .key .space] :=
      ⟨by simp [SingleNots, closed, Token.isOpening], by simp [closed, Token.isOpening]⟩
    have hlist := appliedNots_of_notMem (not_notMem_markersAfter n bs)
    exact ⟨hfront.append hlist, _, _, rfl, hraw _⟩
  | native path op b h =>
    exact ⟨appliedNots_of_notMem (by simp [Dialect.binary, spaced, join, marker]), _, _, rfl,
      hraw _⟩
  | present path text =>
    exact ⟨appliedNots_of_notMem (by simp [Dialect.binary, spaced, join, key]), _, _, rfl, hraw _⟩

theorem appliedNots_clauseSeparator (c : Clause) : AppliedNots (Pred.clauseSeparator c) :=
  appliedNots_of_notMem (by cases c <;> decide)

mutual
theorem Stated.appliedNots {n : Nat} {alone : Bool} {p : Pred} {bs : List Bind} {e : Expr}
    (h : Stated view n alone p bs e) : AppliedNots p.tokens := by
  match h with
  | .leaf h =>
    rw [Pred.tokens, if_neg Bool.false_ne_true]
    exact h.appliedNots.1
  | .negated h =>
    obtain ⟨hts, t, rest, hrest, ht, hnot⟩ := h.appliedNots
    rw [Pred.tokens, if_pos rfl]
    exact hts.not hrest ht hnot
  | @Stated.group _ _ _ wrapped c ps _ _ _ h _ =>
    have hjoined := AppliedNots.join (appliedNots_clauseSeparator c) h.appliedNots
    rw [Pred.tokens]
    cases wrapped with
    | true => exact hjoined.parenthesized
    | false => exact hjoined
theorem StatedAll.appliedNots {n : Nat} {alone : Bool} {ps : List Pred} {bs : List Bind}
    {es : List Expr} (h : StatedAll view n alone ps bs es) :
    ∀ ts ∈ Pred.tokensAll ps, AppliedNots ts := by
  match h with
  | .nil => exact nofun
  | .cons h hs => exact List.forall_mem_cons.mpr ⟨h.appliedNots, hs.appliedNots⟩
end

end

theorem predicate_singleNots {d : Dialect} {s : Scope} {n : Nat} {negate wrap : Bool} {f : Filter}
    {p : Pred} {bs : List Bind} (h : predicate d s n negate wrap f = .ok (some p, bs)) :
    SingleNots p.tokens := by
  obtain ⟨e, hstated, -⟩ := predicate_renders f h
  exact hstated.appliedNots.single

end Sql

/-! ## Negations in documents -/

namespace Documents

/-- A document and the documents that its connectives put together, down to the tests. -/
inductive Part : Document → Document → Prop
  | self (d : Document) : Part d d
  | inner {k : String} {vs : List Value} {d e : Document} (hk : k ∈ connectives)
    (hd : .map d ∈ vs) (h : Part d e) : Part (entry k (.list vs)) e

/-- No part is a `$nor` of another `$nor`. -/
def SingleNors (d : Document) : Prop :=
  ∀ vs v, Part d (entry "$nor" (.list vs)) → .map (entry "$nor" v) ∉ vs

/-- What the compiler puts together at certain paths: constants, tests and negated tests, in
groups. -/
inductive Written (paths : String → Prop) : Document → Prop
  | constant (b : Bool) : Written paths (constant b)
  | test {path : String} (h : paths path) (negated : Bool) (v : Value) :
    Written paths (asNegated negated (entry path v))
  | group (c : Clause) {ds : List Document} (h : ∀ d ∈ ds, Written paths d) :
    Written paths (entry (clauseKey c) (.list (ds.map .map)))

section
variable {paths : String → Prop} {d e : Document}

theorem Written.part (hpaths : ∀ path, paths path → path ∉ connectives) (h : Part d e)
    (hd : Written paths d) : Written paths e := by
  induction h with
  | self d => exact hd
  | @inner k vs d' e hk hmem hpart ih =>
    apply ih
    generalize hentry : entry k (.list vs) = d at hd
    cases hd with
    | constant b => cases hentry
    | @test path hpath negated v =>
      cases negated with
      | false =>
        cases hentry
        exact absurd hk (hpaths _ hpath)
      | true =>
        cases hentry
        cases List.mem_singleton.mp hmem
        exact .test hpath false v
    | @group c ds hds =>
      cases hentry
      obtain ⟨d'', hd'', he⟩ := List.mem_map.mp hmem
      cases he
      exact hds _ hd''

theorem Written.singleNors (hpaths : ∀ path, paths path → path ∉ connectives)
    (hd : Written paths d) : SingleNors d := by
  intro vs v hpart hmem
  have hwritten := hd.part hpaths hpart
  generalize hentry : entry "$nor" (.list vs) = d at hwritten
  cases hwritten with
  | constant b => exact absurd (Prod.mk.inj (List.cons.inj hentry).1).2 nofun
  | @test path hpath negated w =>
    have hconnective := hpaths path hpath
    cases negated with
    | false =>
      cases hentry
      exact absurd (by decide) hconnective
    | true =>
      cases hentry
      cases List.mem_singleton.mp hmem
      exact absurd (by decide) hconnective
  | group c hds =>
    have hkey := (Prod.mk.inj (List.cons.inj hentry).1).1
    cases c <;> exact absurd hkey (by decide)

theorem Written.mono {wider : String → Prop} (h : ∀ path, paths path → wider path)
    (hd : Written paths d) : Written wider d := by
  induction hd with
  | constant b => exact .constant b
  | test hpath negated v => exact .test (h _ hpath) negated v
  | group c _ ih => exact .group c ih

theorem joined_written {c : Clause} {ds : List Document} (hds : ∀ d ∈ ds, Written paths d)
    (h : joined c ds = some d) : Written paths d := by
  match ds with
  | [] => cases h
  | [d'] =>
    cases h
    exact hds d (List.mem_singleton_self d)
  | d' :: d'' :: ds =>
    cases h
    exact .group c hds

end

/-! ## Tests of conditions -/

theorem segments_empty : JsonPath.segments "" = [] := by decide +kernel

theorem childPath_empty (path : String) : childPath path "" = path := by
  unfold childPath
  rw [segments_empty]

/-- What is written is a test at a path or below it. -/
def TestsAt (path : String) (r : Except Error Document) : Prop :=
  ∀ d, r = .ok d → ∃ jsonPath v, d = entry (childPath path jsonPath) v

section
variable {path typeId : String} {r : Except Error Document} {x : Except Error Value}

theorem TestsAt.unless (h : TestsAt path r) (p : Bool) (e : Error) :
    TestsAt path (if p then .error e else r) := by
  cases p with
  | true => exact nofun
  | false => exact h

theorem testsAt_map (jsonPath : String) (f : Value → Value) :
    TestsAt path (x.map fun w => entry (childPath path jsonPath) (f w)) := by
  intro d hd
  obtain ⟨w, -, rfl⟩ := map_eq_ok.mp hd
  exact ⟨jsonPath, f w, rfl⟩

theorem testsAt_path (f : Value → Value) : TestsAt path (x.map fun w => entry path (f w)) := by
  have hbelow : TestsAt path (x.map fun w => entry (childPath path "") (f w)) := testsAt_map "" f
  rw [childPath_empty] at hbelow
  exact hbelow

theorem testsAt_ok (w : Value) : TestsAt path (.ok (entry path w)) := testsAt_path (x := .ok w) id

theorem ordering_testsAt (op : Operator) (key : String) (v : Value) :
    TestsAt path (ordering path typeId op key v) :=
  (testsAt_path fun w => .map (entry key w)).unless _ _

theorem equality_testsAt (v : Value) : TestsAt path (equality path typeId v) := by
  unfold equality
  cases v.isNull with
  | true => exact testsAt_ok .null
  | false => exact testsAt_path id

theorem inequality_testsAt (v : Value) : TestsAt path (inequality path typeId v) := by
  unfold inequality
  cases v.isNull with
  | true => exact testsAt_ok _
  | false => exact ordering_testsAt .ne "$ne" v

theorem between_testsAt (lower upper : Value) : TestsAt path (between path typeId lower upper) := by
  refine TestsAt.unless ?_ _ _
  intro d hd
  obtain ⟨low, -, hd⟩ := bind_eq_ok.mp hd
  obtain ⟨high, -, hd⟩ := bind_eq_ok.mp hd
  cases hd
  exact testsAt_ok _ _ rfl

theorem jsonPathTest_testsAt (v : Value) : TestsAt path (jsonPathTest path v) := by
  cases v with
  | str jsonPath =>
    have hexists : Except.ok (testBy (childPath path jsonPath) "$exists" (.bool true)) =
        (Except.ok (ε := Error) (.bool true)).map fun w =>
          entry (childPath path jsonPath) (.map (entry "$exists" w)) := rfl
    rw [jsonPathTest, hexists]
    exact testsAt_map jsonPath _
  | _ => exact nofun

theorem jsonValueTest_testsAt (v : Value) : TestsAt path (jsonValueTest path typeId v) := by
  unfold jsonValueTest
  cases JsonPath.operand? v with
  | none => exact nofun
  | some o => exact testsAt_map o.1 id

variable {paths : String → Prop} {d : Document} {negated : Bool}

theorem TestsAt.written (h : TestsAt path r) (hpaths : ∀ jsonPath, paths (childPath path jsonPath))
    (hd : r.map (asNegated negated) = .ok d) : Written paths d := by
  obtain ⟨d', hr, rfl⟩ := map_eq_ok.mp hd
  obtain ⟨jsonPath, v, rfl⟩ := h d' hr
  exact .test (hpaths jsonPath) negated v

theorem listed_written (hpath : paths path) {empty b : Bool} {key : String}
    (hd : (if empty then .ok (constant b)
      else x.map fun list => asNegated negated (testBy path key list)) = .ok d) :
    Written paths d := by
  cases empty with
  | true =>
    cases hd
    exact .constant b
  | false =>
    obtain ⟨list, -, rfl⟩ := map_eq_ok.mp hd
    exact .test hpath negated _

theorem membership_written (hpath : paths path) {op : Operator} {vs : List Value}
    (hd : membership path typeId op vs negated = .ok d) : Written paths d := by
  unfold membership at hd
  cases hnull : vs.any Value.isNull with
  | false =>
    rw [hnull] at hd
    exact listed_written hpath hd
  | true =>
    rw [hnull] at hd
    cases hvs : vs.isEmpty with
    | false =>
      rw [hvs] at hd
      cases hd
    | true =>
      rw [hvs] at hd
      cases hd
      exact .constant _

end

/-- The paths at which conditions are tested. -/
def TestedPath (s : Scope) (cs : List Condition) (path : String) : Prop :=
  ∃ c ∈ cs, ∃ jsonPath, path = childPath (pathOf s.view c.property) jsonPath

theorem TestedPath.mono {s : Scope} {cs cs' : List Condition} (h : ∀ c ∈ cs, c ∈ cs')
    (path : String) (hpath : TestedPath s cs path) : TestedPath s cs' path := by
  obtain ⟨c, hc, hpath⟩ := hpath
  exact ⟨c, h c hc, hpath⟩

theorem PlainPaths.not_connective {s : Scope} {cs : List Condition} (h : PlainPaths s cs)
    (path : String) (hpath : TestedPath s cs path) : path ∉ connectives := by
  obtain ⟨c, hc, jsonPath, hpath⟩ := hpath
  rw [hpath]
  exact Documents.not_connective (startsWith_childPath (h c hc) jsonPath)

theorem condition_written {s : Scope} {c : Condition} {negate : Bool} {d : Document}
    (h : condition s c negate = .ok d) : Written (TestedPath s [c]) d := by
  obtain ⟨typeId, -, h⟩ := bind_eq_ok.mp h
  have hbelow : ∀ jsonPath, TestedPath s [c] (childPath (pathOf s.view c.property) jsonPath) :=
    fun jsonPath => ⟨c, List.mem_singleton_self c, jsonPath, rfl⟩
  have hpath := hbelow ""
  rw [childPath_empty] at hpath
  cases hop : c.operator <;> simp only [hop] at h
  case eq => exact (equality_testsAt _).written hbelow h
  case ne => exact (inequality_testsAt _).written hbelow h
  case gt | ge | lt | le => exact (ordering_testsAt _ _ _).written hbelow h
  case like => exact ((testsAt_ok _).unless _ _).written hbelow h
  case range => exact (between_testsAt _ _).written hbelow h
  case inList | notIn => exact membership_written hpath h
  case arrayContains | arrayOverlaps | arrayNotContains | arrayNotOverlaps =>
    exact listed_written hpath h
  case jsonPathExists => exact (jsonPathTest_testsAt _).written hbelow h
  case jsonValueEq => exact (jsonValueTest_testsAt _).written hbelow h

mutual
/-- Negations are written at single tests only. -/
theorem predicate_written {s : Scope} (f : Filter) {negate : Bool} {d : Document}
    (h : predicate s negate f = .ok (some d)) : Written (TestedPath s f.conditions) d := by
  match f with
  | .cond c =>
    rw [predicate] at h
    obtain ⟨d', hd, he⟩ := map_eq_ok.mp h
    cases he
    exact condition_written hd
  | .not f =>
    rw [predicate] at h
    exact predicate_written f h
  | .group c fs =>
    rw [predicate] at h
    obtain ⟨ds, hds, hd⟩ := map_eq_ok.mp h
    exact joined_written (predicates_written fs hds) hd
theorem predicates_written {s : Scope} (fs : List Filter) {negate : Bool} {ds : List Document}
    (h : predicates s negate fs = .ok ds) :
    ∀ d ∈ ds, Written (TestedPath s (Filter.conditionsAll fs)) d := by
  match fs with
  | [] =>
    rw [predicates] at h
    cases h
    exact nofun
  | f :: fs =>
    rw [predicates] at h
    obtain ⟨p, hp, h⟩ := bind_eq_ok.mp h
    obtain ⟨ps, hps, h⟩ := bind_eq_ok.mp h
    cases h
    refine List.forall_mem_append.mpr ⟨fun d hd => ?_, fun d hd => ?_⟩
    · rw [Option.mem_toList] at hd
      rw [hd] at hp
      exact (predicate_written f hp).mono (TestedPath.mono fun c => List.mem_append_left _)
    · exact (predicates_written fs hps d hd).mono (TestedPath.mono fun c => List.mem_append_right _)
end

end Documents

/-! ## De Morgan -/

/-- A negation in front of a filter is written as if it were pushed down by hand, and a double one
as if it were not there. In what is written no negation is applied to another one: in documents it
is applied to the test of a condition, which is no negation unless its path looks like an operator
of the store. -/
theorem negations_written_pushed (s : Scope) (f : Filter) :
    WrittenAlike s (.not f) f.pushNot ∧ WrittenAlike s (.not (.not f)) f ∧
    (∀ d n negate wrap p bs, Sql.predicate d s n negate wrap f = .ok (some p, bs) →
      Sql.SingleNots p.tokens) ∧
    (∀ negate d, Documents.predicate s negate f = .ok (some d) →
      Documents.Written (Documents.TestedPath s f.conditions) d ∧
        (Documents.PlainPaths s f.conditions → Documents.SingleNors d)) := by
  refine ⟨writtenAlike_pushNot s f, writtenAlike_not_not s f, ?_, ?_⟩
  · intro d n negate wrap p bs h
    exact Sql.predicate_singleNots h
  · intro negate d h
    have hwritten := Documents.predicate_written f h
    exact ⟨hwritten, fun hpaths => hwritten.singleNors hpaths.not_connective⟩

/-- Those of age and those missing from a list; the empty group is dropped. -/
def adultsOrUnlisted : Filter :=
  .group .or [.cond (.of "age" .gt (.int 17)), .group .and [],
    .cond (.of "name" .notIn (.list [.str "Ann"]))]

theorem adultsOrUnlisted_negations :
    (∃ p bs, Sql.predicate .postgres Sql.people 0 false false (.not adultsOrUnlisted) =
        .ok (some p, bs) ∧
      p.tokens.text = "NOT (age > :b1) AND NOT (name NOT IN (:b2))" ∧ Sql.SingleNots p.tokens ∧
      Sql.predicate .postgres Sql.people 0 false false adultsOrUnlisted.pushNot =
        .ok (some p, bs)) ∧
    (∃ d, Documents.predicate Sql.people false (.not adultsOrUnlisted) = .ok (some d) ∧
      Documents.SingleNors d) := by
  have hpushed := (negations_written_pushed Sql.people adultsOrUnlisted).1
  have hnots := (negations_written_pushed Sql.people (.not adultsOrUnlisted)).2.2
  have hpaths : Documents.PlainPaths Sql.people (Filter.not adultsOrUnlisted).conditions := by
    intro c hc
    revert c hc
    decide +kernel
  refine ⟨⟨_, _, rfl, by decide +kernel, hnots.1 .postgres 0 false false _ _ rfl, ?_⟩, _, rfl,
    (hnots.2 false _ rfl).2 hpaths⟩
  rw [← hpushed.sql]
  rfl

end Polystore
