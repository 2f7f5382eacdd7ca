import Polystore.Proofs.Sql.Clauses
import Polystore.Proofs.Sql.Markers
import Polystore.Proofs.Sql.NativeReading

/-! # Conditions behind native texts

A native text without a projection that ends in a condition is continued with AND. The condition of
the text has no parentheses around it, so what is asked of a row holds for the last of its
alternatives only. -/

namespace Polystore.Sql
set_option autoImplicit false

open Native (Word Choice Conjunction words? lexemesOf)

/-! ## Going on with AND -/

section
variable {ts : Tokens} {tss : List Tokens} {bs : List Bind} {e : Expr} {es : List Expr}

theorem Operand.and_continued (h : Operand ts bs e) (outer : List Level) (l : Level)
    (rest : List Item) :
    read outer l true (lexemes (items (Pred.clauseSeparator .and ++ ts) bs ++ rest)) =
      read outer (l.operand e) true (lexemes rest) := by
  rw [items_clauseSeparator, List.cons_append, lexemes_clauseKey, clauseLexeme, read, if_pos rfl,
    h.reads]

/-- Whatever has been set aside at an OR before, operands behind AND are joined to the last
conjunction. -/
theorem Operands.and_continued (h : Operands tss bs es) (outer : List Level) (before : Option Expr)
    (a : Expr) (rest : List Item) :
    read outer ⟨before, some a, 0⟩ true (lexemes (items (Sql.continued .and tss) bs ++ rest)) =
      read outer ⟨before, some (.chain .and a es), 0⟩ true (lexemes rest) := by
  induction h generalizing a with
  | nil => rfl
  | @cons ts tss bs cs e es h hs ih =>
    have hts : slots (Pred.clauseSeparator .and ++ ts) = bs.length := by
      rw [slots_append, h.balanced]
      exact Nat.zero_add _
    have hcons : Sql.continued .and (ts :: tss) =
        (Pred.clauseSeparator .and ++ ts) ++ Sql.continued .and tss := rfl
    rw [hcons, items_append hts, List.append_assoc, h.and_continued]
    exact ih (.and a e)

end

/-! ## Statements that begin with a native text -/

/-- The condition behind the first WHERE of a statement that begins with a native text: the words of
the text are read there, and then the tokens behind the text. -/
def Statement.nativeCondition? (name : List Word → Test) (st : Statement) : Option Expr :=
  match st.tokens with
  | .raw text :: ts =>
    (words? text).bind fun ws =>
      match ws.dropWhile (· ≠ .where) with
      | [] => none
      | _ :: ws => read [] .start false
          (lexemesOf name .front ws ++ lexemes (items ts (st.binds.drop (scan text).length)))
  | _ => none

/-- The view starts from a text without a projection, and a condition is all that follows the first
WHERE of the text, which stands between blanks. -/
structure NativeText (v : View) (text : String) (p : Choice) : Prop where
  query : ∃ q, v.native = some q ∧ q.sqlText? = some text ∧ q.projectionText?.getD "*" = "*"
  words : ∃ front, Word.where ∉ front ∧ words? text = some (front ++ .where :: p.words)
  mentioned : mentionsWhere (Text.lowerAscii (Text.trim text)) = true
  proper : p.Proper

section
variable {d : Dialect} {s : Scope} {text : String} {p : Choice} {filter : Option Filter}
  {sort : List SortField} {page : Page} {params : Entries Value}

theorem words?_projected (text : String) : words? ("SELECT * " ++ text) =
    (words? text).map ([.text ['S', 'E', 'L', 'E', 'C', 'T'], .text ['*']] ++ ·) := by
  have hblank : Text.isBlank ' ' = true := by decide
  have hfront : "SELECT * ".toList = ['S', 'E', 'L', 'E', 'C', 'T', ' ', '*', ' '] := by decide
  have hletters : ['S', 'E', 'L', 'C', 'T', '*'].all (!Text.isBlank ·) = true := by decide
  have hselect : Word.of ['S', 'E', 'L', 'E', 'C', 'T'] = .text ['S', 'E', 'L', 'E', 'C', 'T'] := by
    decide +kernel
  have hall : Word.of ['*'] = .text ['*'] := by decide +kernel
  simp only [List.all_cons, List.all_nil, Bool.and_true, Bool.and_eq_true, Bool.not_eq_true']
    at hletters
  obtain ⟨hS, hE, hL, hC, hT, hstar⟩ := hletters
  rw [words?, String.toList_append, hfront]
  simp [Native.cut, Native.beginsComment, Native.flush, hblank, hS, hE, hL, hC, hT, hstar, hselect,
    hall]
  rfl

theorem nativeText_all (text : String) : ((nativeText text "*").1 = text ∨
      (nativeText text "*").1 = "SELECT * " ++ text) ∧
    (nativeText text "*").2 = mentionsWhere (Text.lowerAscii (Text.trim text)) := by
  have hselect : "SELECT " ++ "*" ++ " " = "SELECT * " := by decide +kernel
  rw [nativeText, hselect]
  generalize Text.lowerAscii (Text.trim text) = lowered
  cases isFullQuery lowered with
  | true => exact ⟨.inl rfl, rfl⟩
  | false => exact ⟨.inr rfl, rfl⟩

/-- The base of such a view is the text, behind a projection where it has none. -/
theorem NativeText.base (h : NativeText s.view text p) {b : Base} (hb : base s params = .ok b) :
    b.hasWhere = true ∧ ∃ sql front, b.tokens = [.raw sql] ∧ b.binds.length = (scan sql).length ∧
      Word.where ∉ front ∧ words? sql = some (front ++ .where :: p.words) := by
  obtain ⟨q, hq, hsql, hprojection⟩ := h.query
  obtain ⟨front, hfront, hwords⟩ := h.words
  obtain ⟨hnative, hmentioned⟩ := nativeText_all text
  simp only [Sql.base, hq, nativeBase, hsql, hprojection] at hb
  split at hb
  · cases hb
  · next base hbase =>
    cases (Option.filter_eq_some_iff.mp hbase).1
    generalize nativeText text "*" = r at hb hnative hmentioned
    obtain ⟨sql, hasWhere⟩ := r
    obtain ⟨binds, hbinds, rfl⟩ := map_eq_ok.mp hb
    have hlength : binds.length = (scan sql).length := length_bindsOf (lift_eq_ok.mp hbinds)
    refine ⟨hmentioned.trans h.mentioned, ?_⟩
    rcases hnative with rfl | rfl
    · exact ⟨_, front, rfl, hlength, hfront, hwords⟩
    · refine ⟨_, [.text ['S', 'E', 'L', 'E', 'C', 'T'], .text ['*']] ++ front, rfl, hlength, ?_, ?_⟩
      · simpa using hfront
      · rw [words?_projected, hwords]
        rfl

theorem nativeCondition?_eq {sql : String} {front : List Word} {ts : Tokens} {bs cs : List Bind}
    (name : List Word → Test) (hfront : Word.where ∉ front)
    (hwords : words? sql = some (front ++ .where :: p.words)) (hbs : bs.length = (scan sql).length)
    (exec : ExecKind) :
    (Statement.mk (.raw sql :: ts) (bs ++ cs) exec).nativeCondition? name =
      read [] .start false (lexemesOf name .front p.words ++ lexemes (items ts cs)) := by
  have hbefore : ∀ w ∈ front, decide (w ≠ .where) = true := by
    intro w hw
    rw [decide_eq_true_eq]
    rintro rfl
    exact hfront hw
  have hdrop : (front ++ .where :: p.words).dropWhile (· ≠ .where) = .where :: p.words :=
    List.dropWhile_append_of_pos hbefore
  rw [Statement.nativeCondition?]
  simp only [hwords, Option.bind_some, hdrop]
  rw [← hbs, List.drop_left]

/-- The condition that is read behind the first WHERE is the one that stands in front of the further
clauses of the statement. -/
theorem NativeText.condition_eq (h : NativeText s.view text p) {b : Base}
    (hb : Sql.base s params = .ok b) (hp : b.Own (some p)) {name : List Word → Test}
    {st : Statement} {c : Clauses} (hst : st.Continues name b c) :
    st.nativeCondition? name = c.condition := by
  obtain ⟨-, sql, front, htokens, hlength, hfront, hwords⟩ := h.base hb
  obtain ⟨tokens, binds, exec⟩ := st
  obtain ⟨own, ts, bs, hown, rfl, rfl, hc⟩ := hst
  cases hp.words.symm.trans hown
  rw [htokens, List.singleton_append, nativeCondition?_eq name hfront hwords hlength exec]
  obtain ⟨condition, hcondition, hc⟩ := Option.bind_eq_some_iff.mp hc
  obtain ⟨e, he, rfl⟩ := Option.map_eq_some_iff.mp hcondition
  obtain ⟨_, -, hc⟩ := Option.bind_eq_some_iff.mp hc
  obtain ⟨_, -, rfl⟩ := Option.map_eq_some_iff.mp hc
  exact he

/-! ## What holds of the rows of a page -/

variable (s filter sort page) in
/-- What the caller and the page ask of a row. -/
def askedTruth (v : Test → Truth) : Option Truth :=
  both (filter.bind (filterTruth s v)) (seekTruth s v sort page)

/-- The truth of the alternatives in front of the last one. -/
def earlierTruth (name : List Word → Test) (p : Choice) (v : Test → Truth) : Truth :=
  match p.earlier? name with
  | none => .no
  | some e => e.truth v

theorem truth_expr (name : List Word → Test) (p : Choice) (v : Test → Truth) :
    (p.expr name).truth v = (earlierTruth name p v).or ((p.last.expr name).truth v) := by
  cases p with
  | one c => exact (Truth.no_or _).symm
  | or d c => rfl

/-- A choice of which the last alternative alone is restricted comes to the restricted choice
exactly if the others hold of no more than is asked for. -/
theorem Truth.or_and_iff (a b r : Truth) : a.or (b.and r) = (a.or b).and r ↔ a.and r = a := by
  cases a <;> cases b <;> cases r <;> decide

theorem appended_behind (tss : List Tokens) : appended true tss = continued .and tss := by
  cases tss <;> rfl

theorem getD_groupTruth (ts : List Truth) :
    (groupTruth .and ts).getD .yes = Truth.group .and ts := by cases ts <;> rfl

/-- Operands behind the words of a condition restrict its last alternative. -/
theorem read_restricted (hp : p.Proper) (name : List Word → Test) {tss : List Tokens}
    {bs : List Bind} {es : List Expr} (hops : Operands tss bs es) :
    ∃ e, (∀ rest, Closing (lexemes rest) → read [] .start false (lexemesOf name .front p.words ++
        lexemes (items (Sql.continued .and tss) bs ++ rest)) = some e) ∧ ∀ v, e.truth v =
      (earlierTruth name p v).or
        (((p.last.expr name).truth v).and (Truth.group .and (es.map (Expr.truth v)))) := by
  have hwords : ∀ ls, read [] .start false (lexemesOf name .front (p.words ++ []) ++ ls) =
      read [] ⟨p.earlier? name, some (p.last.expr name), 0⟩ true (lexemesOf name .back [] ++ ls) :=
    fun ls => p.reads hp rfl ls []
  have hvalue : ∃ e, (Level.mk (p.earlier? name)
      (some (.chain .and (p.last.expr name) es)) 0).value? = some e ∧ ∀ v,
        e.truth v = (earlierTruth name p v).or
          ((Expr.chain .and (p.last.expr name) es).truth v) := by
    cases p with
    | one c => exact ⟨_, rfl, fun v => (Truth.no_or _).symm⟩
    | or d c => exact ⟨_, rfl, fun v => rfl⟩
  obtain ⟨e, he, htruth⟩ := hvalue
  rw [List.append_nil] at hwords
  refine ⟨e, fun rest hrest => ?_, fun v => ?_⟩
  · rw [hwords]
    show read [] _ true (lexemes _) = _
    rw [hops.and_continued, read_closing hrest, he]
  · rw [htruth v, Expr.truth_chain, List.map_cons, Truth.group_cons]
    rfl

/-- What is asked behind a condition: each of the two predicates is one operand, or none. -/
theorem asked_operands {b : Base} {r q : Bound (Option Pred)} (hwhere : b.hasWhere = true)
    (hr : predicate? d s true filter = .ok r)
    (hq : seek s r.2.length sort (b.restrict r).hasWhere page = .ok q) :
    ∃ es, Operands (tokensOf r ++ tokensOf q) (r.2 ++ q.2) es ∧
      (∀ us ∈ tokensOf r ++ tokensOf q, Plain us) ∧ ∀ v,
        (askedTruth s filter sort page v).getD .yes = Truth.group .and (es.map (Expr.truth v)) := by
  have hrestricted : (b.restrict r).hasWhere = true := by
    obtain ⟨o, bs⟩ := r
    cases o with
    | none => exact hwhere
    | some o => rfl
  have hseek := seek_renders hq
  rw [hrestricted] at hseek
  obtain ⟨es, hes, hplain, hfirst⟩ := (predicate?_renders hr).operands
  obtain ⟨fs, hfs, hplain', hsecond⟩ := hseek.operands
  refine ⟨es ++ fs, hes.append hfs, List.forall_mem_append.mpr ⟨hplain, hplain'⟩, fun v => ?_⟩
  rw [askedTruth, hfirst v, hsecond v, both_groupTruth, getD_groupTruth, List.map_append]

/-- A select from a native text is read as the condition of the text, of which the last alternative
alone is restricted by what the caller and the page ask. -/
theorem select_native (h : NativeText s.view text p) (name : List Word → Test) {st : Statement}
    (hst : select d s filter sort page params = .ok st) :
    ∃ e, st.nativeCondition? name = some e ∧ ∀ v, e.truth v = (earlierTruth name p v).or
      (((p.last.expr name).truth v).and ((askedTruth s filter sort page v).getD .yes)) := by
  obtain ⟨b, r, q, hb, hr, hq, rfl⟩ := select_eq_ok.mp hst
  obtain ⟨hwhere, sql, front, htokens, hlength, hfront, hwords⟩ := h.base hb
  obtain ⟨es, hops, -, hasked⟩ := asked_operands hwhere hr hq
  obtain ⟨hts, hbs⟩ := restrict_restrict b r q
  have hitems := items_append (hops.continued .and).1 (tail d s sort page) []
  rw [List.append_nil] at hitems
  obtain ⟨e, he, htruth⟩ := read_restricted h.proper name hops
  refine ⟨e, ?_, fun v => ?_⟩
  · rw [hts, hbs, hwhere, htokens, appended_behind, List.append_assoc, List.singleton_append,
      nativeCondition?_eq name hfront hwords hlength, hitems]
    exact he _ (closing_tail d s sort page)
  · rw [htruth v, hasked v]

/-- What the caller and the page ask restricts the condition of a native text as a whole exactly
where all alternatives but the last hold of no more: a row of an earlier alternative is in the
result whether or not it is asked for. -/
theorem native_condition_restricted (h : NativeText s.view text p) (name : List Word → Test)
    {st : Statement} (hst : select d s filter sort page params = .ok st) :
    ∃ e, st.nativeCondition? name = some e ∧ ∀ v,
      (some (e.truth v) =
          both (some ((p.expr name).truth v)) (askedTruth s filter sort page v) ↔
        ∀ r, askedTruth s filter sort page v = some r →
          (earlierTruth name p v).and r = earlierTruth name p v) ∧
      (both (some ((p.expr name).truth v)) (askedTruth s filter sort page v) = some .yes →
        e.truth v = .yes) := by
  obtain ⟨e, he, htruth⟩ := select_native h name hst
  refine ⟨e, he, fun v => ?_⟩
  rw [htruth v, truth_expr]
  cases askedTruth s filter sort page v with
  | none =>
    rw [Option.getD_none, Truth.and_yes]
    exact ⟨⟨fun _ => nofun, fun _ => rfl⟩, Option.some.inj⟩
  | some r =>
    generalize earlierTruth name p v = a
    generalize (p.last.expr name).truth v = b
    have hboth : both (some (a.or b)) (some r) = some ((a.or b).and r) := rfl
    rw [Option.getD_some, hboth, Option.some_inj, Truth.or_and_iff]
    refine ⟨⟨?_, fun h => h r rfl⟩, fun hyes => ?_⟩
    · rintro hand r' ⟨⟩
      exact hand
    · obtain ⟨hor, rfl⟩ := Truth.and_eq_yes.mp (Option.some.inj hyes)
      rw [Truth.and_yes]
      exact hor

end

/-! ## Documents of a tenant or shared by others -/

def tenantText : String := "SELECT * FROM docs WHERE tenant = 1 OR shared"

def tenantDocs : Scope :=
  let entity : Entity := ⟨"Doc", .entity, some "docs", [("owner", .ofType (.scalar "long"))], []⟩
  ⟨⟨[("Doc", entity)], []⟩, entity, ⟨"docs", [], some ⟨some (.str tenantText), none, false⟩⟩⟩

def tenantTest : List Word := [.text "tenant".toList, .text ['='], .text ['1']]

def tenantChoice : Choice :=
  .or (.one (.one (.test tenantTest))) (.one (.test [.text "shared".toList]))

def named (ws : List Word) : Test := .isNotNull (if ws = tenantTest then "tenant" else "shared")

/-- A row of the tenant that is neither shared nor of the owner asked for. -/
def foreignRow : Test → Truth
  | .isNotNull e => .ofBool (e == "tenant")
  | _ => .no

theorem base_tenantDocs : base tenantDocs [] = .ok ⟨[.raw tenantText], [], true⟩ :=
  base_native rfl (by decide +kernel) (by decide +kernel) (by decide +kernel)

theorem tenantDocs_bypassed :
    ∃ st e, select .postgres tenantDocs (some (.cond (.of "owner" .eq (.long 7)))) []
        (.offset 0 50) [] = .ok st ∧
      st.text = tenantText ++ " AND owner = :b1 LIMIT 50 OFFSET 0" ∧
      st.nativeCondition? named = some e ∧
      some (e.truth foreignRow) ≠
        both (some ((tenantChoice.expr named).truth foreignRow)) (some .no) := by
  have hnative : NativeText tenantDocs.view tenantText tenantChoice := by
    refine ⟨⟨_, rfl, rfl, rfl⟩, ⟨[.text "SELECT".toList, .text ['*'], .text "FROM".toList,
      .text "docs".toList], by decide, by decide +kernel⟩, by decide +kernel, ?_, ?_⟩
    · show Native.isTest tenantTest = true
      decide +kernel
    · show Native.isTest [.text "shared".toList] = true
      decide +kernel
  let owned : Filter := .cond (.of "owner" .eq (.long 7))
  have hselect : ∃ st, select .postgres tenantDocs (some owned) [] (.offset 0 50) [] = .ok st ∧
      st.text = tenantText ++ " AND owner = :b1 LIMIT 50 OFFSET 0" :=
    ⟨_, select_eq_ok.mpr ⟨_, _, _, base_tenantDocs, rfl, rfl, rfl⟩, by decide +kernel⟩
  obtain ⟨st, hselect, htext⟩ := hselect
  obtain ⟨e, he, htruth⟩ := native_condition_restricted hnative named hselect
  refine ⟨st, e, hselect, htext, he, fun hsame => ?_⟩
  have hand := (htruth foreignRow).1.mp hsame .no rfl
  exact absurd hand (by decide)

end Polystore.Sql
