import Polystore.Proofs.Model.PropertyPaths
import Polystore.Proofs.Sql.Admission
import Polystore.Proofs.Sql.ResultColumns

/-! # Columns of predicates and sort clauses

Behind a derived select the tests and the sort clause name columns by the expressions of their
property paths. A path below a reference has the expression that the select shows under its name
only if the view maps it there; what the view does not map is still written, as a column in snake
case. -/

namespace Polystore.Sql
set_option autoImplicit false

open Tokens (key spaced commaSeparated parenthesized join)

/-! ## Expressions in a text -/

/-- The column expressions that a text uses, in their order. Operators behind them are none. -/
def usedExpressions : Tokens → List String
  | .raw e :: .key .space :: .raw _ :: ts => e :: usedExpressions ts
  | .raw e :: ts => e :: usedExpressions ts
  | _ :: ts => usedExpressions ts
  | [] => []

/-- Wherever they stand, the tokens use these expressions. -/
def Uses (ts : Tokens) (es : List String) : Prop :=
  ∀ us, usedExpressions (ts ++ us) = es ++ usedExpressions us

/-- The parts use these expressions, one after the other. -/
inductive UsesEach : List Tokens → List String → Prop where
  | nil : UsesEach [] []
  | cons {ts : Tokens} {tss : List Tokens} {es fs : List String} (h : Uses ts es)
    (hs : UsesEach tss fs) : UsesEach (ts :: tss) (es ++ fs)

section
variable {ts us : Tokens} {tss uss : List Tokens} {es fs : List String}

theorem Uses.append (h : Uses ts es) (k : Uses us fs) : Uses (ts ++ us) (es ++ fs) := by
  intro vs
  rw [List.append_assoc, h, k, List.append_assoc]

theorem Uses.eq (h : Uses ts es) : usedExpressions ts = es := by
  have hend := h []
  rwa [List.append_nil, usedExpressions, List.append_nil] at hend

theorem uses_nil : Uses [] [] := fun _ => rfl

theorem uses_key (k : Keyword) : Uses [.key k] [] := by
  intro us
  rw [List.singleton_append, usedExpressions] <;> simp

theorem uses_marker (n : Nat) : Uses [marker n] [] := by
  intro us
  rw [List.singleton_append, marker, usedExpressions] <;> simp

theorem Uses.parenthesized (h : Uses ts es) : Uses (parenthesized ts) es := by
  have hall := ((uses_key .lparen).append h).append (uses_key .rparen)
  rwa [List.nil_append, List.append_nil] at hall

theorem UsesEach.append (h : UsesEach tss es) (k : UsesEach uss fs) :
    UsesEach (tss ++ uss) (es ++ fs) := by
  induction h with
  | nil => exact k
  | cons h _ ih =>
    rw [List.append_assoc]
    exact .cons h ih

theorem UsesEach.single (h : Uses ts es) : UsesEach [ts] es := by
  have hcons := UsesEach.cons h .nil
  rwa [List.append_nil] at hcons

theorem UsesEach.join {sep : Tokens} (hsep : Uses sep []) (h : UsesEach tss es) :
    Uses (join sep tss) es := by
  induction h with
  | nil => exact uses_nil
  | @cons ts tss es fs h hs ih =>
    cases hs with
    | nil =>
      rw [List.append_nil]
      exact h
    | cons h' hs' =>
      have hfirst := h.append hsep
      rw [List.append_nil] at hfirst
      exact hfirst.append ih

theorem UsesEach.spaced (h : UsesEach tss es) : Uses (spaced tss) es := h.join (uses_key .space)

theorem uses_separator : Uses [.key .comma, .key .space] [] :=
  (uses_key .comma).append (uses_key .space)

theorem uses_clauseSeparator (c : Clause) : Uses (Pred.clauseSeparator c) [] :=
  (uses_key .space).append ((uses_key (clauseKey c)).append (uses_key .space))

theorem uses_markers (n : Nat) (bs : List Bind) : Uses (commaSeparated (markersAfter n bs)) [] := by
  refine UsesEach.join uses_separator ?_
  induction bs generalizing n with
  | nil => exact .nil
  | cons b bs ih => exact .cons (uses_marker (n + 1)) (ih (n + 1))

end

/-! ## Tests -/

section
variable {n : Nat} {expr typeId : String} {v : Value} {r : Bound Tokens} {q : Bound Pred}

/-- An expression with a keyword behind it. -/
theorem uses_raw_key (expr : String) (k : Keyword) {ts : Tokens} {es : List String}
    (h : Uses ts es) : Uses (.raw expr :: .key .space :: .key k :: ts) (expr :: es) := by
  intro us
  have hkeys := ((uses_key .space).append (uses_key k)).append h
  rw [List.cons_append, usedExpressions]
  · exact congrArg (expr :: ·) (hkeys us)
  · simp

theorem uses_comparison (op : Keyword) : Uses (comparison n expr op typeId v).1 [expr] :=
  uses_raw_key expr op ((uses_key .space).append (uses_marker (n + 1)))

theorem uses_equality (op nullTest : Keyword) :
    Uses (equality n expr op nullTest typeId v).1 [expr] := by
  unfold equality
  split
  · exact uses_raw_key expr nullTest uses_nil
  · exact uses_comparison op

theorem uses_ordering {op : Operator} {k : Keyword} (h : ordering n expr op k typeId v = .ok r) :
    Uses r.1 [expr] := by
  unfold ordering at h
  split at h
  · cases h
  · cases h
    exact uses_comparison k

theorem uses_between {lower upper : Value} (h : between n expr typeId lower upper = .ok r) :
    Uses r.1 [expr] := by
  unfold between at h
  split at h
  · cases h
  · cases h
    exact uses_raw_key expr .between ((uses_key .space).append ((uses_marker (n + 1)).append
      ((uses_key .space).append ((uses_key .and).append ((uses_key .space).append
        (uses_marker (n + 2)))))))

/-- The operator is not an expression. -/
theorem uses_binary (op : String) {operand : Token} (h : ∀ e, operand ≠ .raw e) :
    Uses (Dialect.binary expr op operand) [expr] := by
  intro us
  cases operand with
  | raw e => exact absurd rfl (h e)
  | _ => rfl

theorem uses_jsonPathTest {d : Dialect} {ts : Tokens} (h : jsonPathTest d expr v = .ok ts) :
    Uses ts [expr] := by
  unfold jsonPathTest at h
  split at h
  · rename_i path
    have hts := lift_eq_ok.mp h
    cases d with
    | ansi => cases hts
    | postgres =>
      cases hts
      have hbinary : Uses (Dialect.binary expr "#>"
          (.litString (Dialect.pathLiteral (JsonPath.segments path)))) [expr] :=
        uses_binary "#>" nofun
      exact (UsesEach.cons hbinary (.single (uses_key .isNotNull))).spaced
  · cases h

theorem uses_jsonValueTest {d : Dialect} (h : jsonValueTest n d expr v = .ok r) :
    Uses r.1 [expr] := by
  unfold jsonValueTest at h
  split at h
  · cases h
  · obtain ⟨ts, hts, rfl⟩ := map_eq_ok.mp h
    have hts := lift_eq_ok.mp hts
    cases d with
    | ansi => cases hts
    | postgres =>
      cases hts
      exact uses_binary "@>" nofun

theorem uses_test {ts : Tokens} {es : List String} (negated : Bool) (h : Uses ts es) :
    Uses (Pred.test ts negated).tokens es := by
  cases negated with
  | false => exact h
  | true => exact (uses_key .not).append ((uses_key .space).append h.parenthesized)

theorem uses_map_asTest {x : Except Error (Bound Tokens)} {negated : Bool} {es : List String}
    (h : x.map (asTest negated) = .ok q) (hx : ∀ b, x = .ok b → Uses b.1 es) :
    Uses q.1.tokens es := by
  obtain ⟨b, hb, rfl⟩ := map_eq_ok.mp h
  exact uses_test negated (hx b hb)

/-- The expressions of a test of a list; a constant has none. -/
def listed (expr : String) (vs : List Value) : List String := if vs.isEmpty then [] else [expr]

theorem uses_constant (b : Bool) : Uses (Pred.constant b).tokens [] := fun _ => rfl

theorem uses_membership {op : Operator} {vs : List Value} {negated : Bool}
    (h : membership n expr op typeId vs negated = .ok q) : Uses q.1.tokens (listed expr vs) := by
  unfold membership at h
  unfold listed
  split at h
  · rename_i hempty
    cases h
    rw [if_pos hempty]
    exact uses_constant _
  · rename_i hempty
    rw [if_neg hempty]
    dsimp only at h
    split at h
    · cases h
    · cases h
      have hlist := (uses_markers n (vs.map (scalarBind typeId))).parenthesized
      refine uses_test negated ?_
      cases op == Operator.notIn with
      | false => exact uses_raw_key expr .in ((uses_key .space).append hlist)
      | true =>
        exact uses_raw_key expr .not ((uses_key .space).append ((uses_key .in).append
          ((uses_key .space).append hlist)))

theorem uses_arrayTest {vs : List Value} {empty negated : Bool} {op : String}
    {render : Token → Except PlanningError Tokens}
    (hr : ∀ m ts, render m = .ok ts → ts = Dialect.binary expr op m)
    (h : arrayTest n typeId vs empty negated render = .ok q) : Uses q.1.tokens (listed expr vs) := by
  unfold arrayTest at h
  unfold listed
  split at h
  · rename_i hempty
    cases h
    rw [if_pos hempty]
    exact uses_constant _
  · rename_i hempty
    rw [if_neg hempty]
    split at h
    · rename_i ts hts
      cases h
      rw [hr _ _ hts]
      exact uses_test negated (uses_binary op nofun)
    · cases h

end

/-! ## Filters -/

/-- The path that is written for a condition; none for the constant of an empty list. -/
def conditionPaths (c : Condition) : List String :=
  if c.operator.isListShaped && c.value.toList.isEmpty then [] else [c.property]

/-- The paths that are written for a filter, in their order. -/
def filterPaths (filter : Option Filter) : List String :=
  ((filter.map Filter.conditions).getD []).flatMap conditionPaths

section
variable {d : Dialect} {s : Scope} {n : Nat}

theorem uses_condition {c : Condition} {negate : Bool} {q : Bound Pred}
    (h : condition d s n c negate = .ok q) :
    Uses q.1.tokens ((conditionPaths c).map s.view.refPath) := by
  obtain ⟨typeId, -, h⟩ := bind_eq_ok.mp h
  have hlisted : c.operator.isListShaped = true →
      (conditionPaths c).map s.view.refPath = listed (s.view.refPath c.property) c.value.toList := by
    intro hop
    unfold conditionPaths listed
    rw [hop, Bool.true_and]
    split <;> rfl
  have hsingle : c.operator.isListShaped = false →
      (conditionPaths c).map s.view.refPath = [s.view.refPath c.property] := by
    intro hop
    unfold conditionPaths
    rw [hop, Bool.false_and, if_neg Bool.false_ne_true]
    rfl
  cases hop : c.operator <;> rw [hop] at hlisted hsingle <;> simp only [hop] at h
  case eq => exact hsingle rfl ▸ uses_map_asTest h fun _ hb => Except.ok.inj hb ▸ uses_equality _ _
  case ne => exact hsingle rfl ▸ uses_map_asTest h fun _ hb => Except.ok.inj hb ▸ uses_equality _ _
  case gt | ge | lt | le | like =>
    exact hsingle rfl ▸ uses_map_asTest h fun _ => uses_ordering
  case range => exact hsingle rfl ▸ uses_map_asTest h fun _ => uses_between
  case jsonPathExists =>
    refine hsingle rfl ▸ uses_map_asTest h fun b hb => ?_
    obtain ⟨ts, hts, rfl⟩ := map_eq_ok.mp hb
    exact uses_jsonPathTest hts
  case jsonValueEq => exact hsingle rfl ▸ uses_map_asTest h fun _ => uses_jsonValueTest
  case inList | notIn => exact hlisted rfl ▸ uses_membership h
  case arrayContains | arrayNotContains =>
    exact hlisted rfl ▸ uses_arrayTest (fun _ _ => arrayContains_eq) h
  case arrayOverlaps | arrayNotOverlaps =>
    exact hlisted rfl ▸ uses_arrayTest (fun _ _ => arrayOverlaps_eq) h

theorem tokensAll_eq_map (ps : List Pred) : Pred.tokensAll ps = ps.map Pred.tokens := by
  induction ps with
  | nil => rfl
  | cons p ps ih => rw [Pred.tokensAll, ih, List.map_cons]

theorem uses_group {ps : List Pred} {es : List String} (c : Clause) (wrapped : Bool)
    (h : UsesEach (ps.map Pred.tokens) es) : Uses (Pred.group c ps wrapped).tokens es := by
  have hjoined := h.join (uses_clauseSeparator c)
  rw [← tokensAll_eq_map] at hjoined
  cases wrapped with
  | false => exact hjoined
  | true => exact hjoined.parenthesized

theorem uses_grouped {ps : List Pred} {es : List String} {bs : List Bind} (c : Clause) (wrap : Bool)
    (h : UsesEach (ps.map Pred.tokens) es) : UsesEach (tokensOf (grouped c wrap ps, bs)) es := by
  match ps with
  | [] => exact h
  | [p] => exact h
  | p :: q :: ps => exact .single (uses_group c wrap h)

mutual
/-- What is written for a filter uses the expressions of the paths in it. -/
theorem uses_predicate (f : Filter) {n : Nat} {negate wrap : Bool} {r : Bound (Option Pred)}
    (h : predicate d s n negate wrap f = .ok r) :
    UsesEach (tokensOf r) ((f.conditions.flatMap conditionPaths).map s.view.refPath) := by
  match f with
  | .cond c =>
    rw [predicate] at h
    obtain ⟨q, hq, rfl⟩ := map_eq_ok.mp h
    rw [Filter.conditions, List.flatMap_singleton]
    exact .single (uses_condition hq)
  | .not f =>
    rw [predicate] at h
    exact uses_predicate f h
  | .group clause fs =>
    rw [predicate] at h
    obtain ⟨q, hq, rfl⟩ := map_eq_ok.mp h
    exact uses_grouped _ wrap (uses_predicates fs hq)
theorem uses_predicates (fs : List Filter) {n : Nat} {negate wrap : Bool} {r : Bound (List Pred)}
    (h : predicates d s n negate wrap fs = .ok r) :
    UsesEach (r.1.map Pred.tokens)
      (((Filter.conditionsAll fs).flatMap conditionPaths).map s.view.refPath) := by
  match fs with
  | [] =>
    rw [predicates] at h
    cases h
    exact .nil
  | f :: fs =>
    rw [predicates] at h
    obtain ⟨⟨p, bs⟩, hp, h⟩ := bind_eq_ok.mp h
    obtain ⟨⟨ps, cs⟩, hps, h⟩ := bind_eq_ok.mp h
    cases h
    rw [Filter.conditionsAll, List.flatMap_append, List.map_append, List.map_append]
    exact (uses_predicate f hp).append (uses_predicates fs hps)
end

theorem uses_predicate? {wrap : Bool} {filter : Option Filter} {r : Bound (Option Pred)}
    (h : predicate? d s wrap filter = .ok r) :
    UsesEach (tokensOf r) ((filterPaths filter).map s.view.refPath) := by
  cases filter with
  | none =>
    cases h
    exact .nil
  | some f => exact uses_predicate f h

/-! ## Pages -/

/-- The fields of the terms that a page is sought with: of each field with all earlier ones. -/
def termPaths (earlier : List SortField) : List SortField → List String
  | [] => []
  | f :: fs => (earlier ++ [f]).map (·.field) ++ termPaths (earlier ++ [f]) fs

def pagePaths (sort : List SortField) : Page → List String
  | .offset _ _ => []
  | .seek _ after => if after.isEmpty then [] else termPaths [] sort

variable {after : Entries Value}

theorem uses_seekTest {op : Keyword} {field : String} {q : Bound Pred}
    (h : seekTest s after n op field = .ok q) : Uses q.1.tokens [s.view.refPath field] := by
  unfold seekTest at h
  split at h
  · cases h
  · split at h
    · cases h
    · obtain ⟨typeId, -, h⟩ := bind_eq_ok.mp h
      cases h
      exact uses_comparison op

theorem uses_seekTests {last : SortField} {earlier : List SortField} {r : Bound (List Pred)}
    (h : seekTests s after last n earlier = .ok r) :
    UsesEach (r.1.map Pred.tokens) (((earlier ++ [last]).map (·.field)).map s.view.refPath) := by
  induction earlier generalizing n r with
  | nil =>
    obtain ⟨⟨p, bs⟩, hp, h⟩ := bind_eq_ok.mp h
    cases h
    exact .single (uses_seekTest hp)
  | cons f fs ih =>
    obtain ⟨⟨p, bs⟩, hp, h⟩ := bind_eq_ok.mp h
    obtain ⟨⟨ps, cs⟩, hps, h⟩ := bind_eq_ok.mp h
    cases h
    exact .cons (uses_seekTest hp) (ih hps)

theorem uses_seekTerms {earlier fs : List SortField} {r : Bound (List Pred)}
    (h : seekTerms s after n earlier fs = .ok r) :
    UsesEach (r.1.map Pred.tokens) ((termPaths earlier fs).map s.view.refPath) := by
  induction fs generalizing n earlier r with
  | nil =>
    cases h
    exact .nil
  | cons f fs ih =>
    obtain ⟨⟨ps, bs⟩, hps, h⟩ := bind_eq_ok.mp h
    obtain ⟨⟨ts, cs⟩, hts, h⟩ := bind_eq_ok.mp h
    cases h
    rw [termPaths, List.map_append]
    exact .cons (uses_group .and true (uses_seekTests hps)) (ih hts)

theorem uses_seek {sort : List SortField} {hasWhere : Bool} {page : Page} {r : Bound (Option Pred)}
    (h : seek s n sort hasWhere page = .ok r) :
    UsesEach (tokensOf r) ((pagePaths sort page).map s.view.refPath) := by
  cases page with
  | offset offset limit =>
    cases h
    exact .nil
  | seek limit after =>
    unfold seek at h
    unfold pagePaths
    dsimp only at h ⊢
    split at h
    · rename_i hempty
      cases h
      rw [if_pos hempty]
      exact .nil
    · rename_i hempty
      rw [if_neg hempty]
      split at h
      · cases h
      · obtain ⟨q, hq, rfl⟩ := map_eq_ok.mp h
        exact .single (uses_group .or _ (uses_seekTerms hq))

/-! ## Sort clauses -/

theorem uses_orderItem (v : View) (f : SortField) : Uses (orderItem v f) [v.refPath f.field] :=
  uses_raw_key _ _ uses_nil

theorem uses_orderItems (v : View) (sort : List SortField) :
    UsesEach (sort.map (orderItem v)) ((sort.map (·.field)).map v.refPath) := by
  induction sort with
  | nil => exact .nil
  | cons f fs ih => exact .cons (uses_orderItem v f) ih

theorem uses_orderBy (v : View) (sort : List SortField) :
    UsesEach (orderBy v sort) ((sort.map (·.field)).map v.refPath) := by
  unfold orderBy
  cases sort with
  | nil => exact .nil
  | cons f fs =>
    rw [List.isEmpty_cons, if_neg Bool.false_ne_true]
    refine .cons (uses_key .orderBy) (.single ?_)
    exact UsesEach.join uses_separator (uses_orderItems v (f :: fs))

theorem uses_page (d : Dialect) (page : Page) : Uses (d.page page) [] := by
  intro us
  cases d <;> cases page <;> rfl

theorem uses_tail (sort : List SortField) (page : Page) :
    Uses (tail d s sort page) ((sort.map (·.field)).map s.view.refPath) := by
  have hall := (uses_orderBy s.view sort).append (.single (uses_page d page))
  rw [List.append_nil] at hall
  exact (uses_key .space).append hall.spaced

/-! ## Reads -/

/-- The paths that a read names columns for: in its filter, its page and its sort clause. -/
def usedPaths (filter : Option Filter) (sort : List SortField) (page : Page) : List String :=
  filterPaths filter ++ pagePaths sort page ++ sort.map (·.field)

theorem uses_appended {tss : List Tokens} {es : List String} (h : UsesEach tss es) :
    Uses (appended false tss) es := by
  cases h with
  | nil => exact uses_nil
  | cons h hs =>
    have hwhere := (uses_key .space).append ((uses_key .where).append (uses_key .space))
    exact hwhere.append ((UsesEach.cons h hs).join (uses_clauseSeparator .and))

theorem select_uses {filter : Option Filter} {sort : List SortField} {page : Page}
    {params : Entries Value} {st : Statement} (hn : s.view.native = none)
    (h : select d s filter sort page params = .ok st) :
    ∃ ts rest, derivedSelect s = .ok ts ∧ st.tokens = ts ++ rest ∧
      usedExpressions rest = (usedPaths filter sort page).map s.view.refPath := by
  obtain ⟨b, r, q, hb, hr, hq, rfl⟩ := select_eq_ok.mp h
  rw [base, hn] at hb
  obtain ⟨ts, hts, rfl⟩ := map_eq_ok.mp hb
  obtain ⟨htokens, -⟩ := restrict_restrict ⟨ts, [], false⟩ r q
  refine ⟨ts, appended false (tokensOf r ++ tokensOf q) ++ tail d s sort page,
    lift_eq_ok.mp hts, ?_, ?_⟩
  · rw [htokens, List.append_assoc]
  · have hparts := (uses_predicate? hr).append (uses_seek hq)
    rw [((uses_appended hparts).append (uses_tail sort page)).eq, usedPaths, List.map_append,
      List.map_append]

end

/-! ## Columns that are shown -/

/-- A select shows one expression under a name, and no other one. -/
structure Shows (ts : Tokens) (name expr : String) : Prop where
  shown : ⟨expr, name⟩ ∈ namedColumns ts
  only : ∀ c ∈ namedColumns ts, c.name = name → c.expr = expr

section
variable (v : View)

/-- The target of a path by its own entry. -/
def ownTarget? (path : String) : Option String := (v.mapping.lookup path).bind Mapping.target?

/-- The target of a child in the entry of a reference. -/
def childTarget? (parent child : String) : Option String :=
  (v.mapping.lookup parent).bind fun m => (m.fields.lookup child).bind Mapping.target?

/-- A path below a reference is mapped as its child, and is not mapped to anything else. -/
def MappedBelow (path : String) : Prop :=
  ∀ parent child, Text.splitOnce? '.' path = some (parent, child) →
    ∃ t, childTarget? v parent child = some t ∧ ∀ u, ownTarget? v path = some u → u = t

end

section
variable {v : View} {s : Scope} {path parent child t : String}

theorem explicitRef?_below (h : Text.splitOnce? '.' path = some (parent, child)) :
    v.explicitRef? path = (ownTarget? v path).or (childTarget? v parent child) := by
  unfold View.explicitRef? ownTarget? childTarget?
  rw [h]
  cases (v.mapping.lookup path).bind Mapping.target? with
  | some u => rfl
  | none => rfl

theorem refPath_of_child (h : Text.splitOnce? '.' path = some (parent, child))
    (ht : childTarget? v parent child = some t) (hown : ∀ u, ownTarget? v path = some u → u = t) :
    v.refPath path = t := by
  rw [View.refPath, explicitRef?_below h, ht]
  cases hu : ownTarget? v path with
  | none => rfl
  | some u => exact hown u hu

theorem refPath_of_own {u : String} (h : ownTarget? v path = some u) : v.refPath path = u := by
  unfold ownTarget? at h
  rw [View.refPath, View.explicitRef?, h]
  rfl

/-- A path to a scalar names a field or leads below a reference. -/
theorem field_of_scalarType {usage : PathUsage} {id : String}
    (h : s.scalarType usage path = .ok id) :
    (Text.splitOnce? '.' path = none ∧
      ∃ f, (path, f) ∈ s.entity.fields ∧ Entity.isRef f.type = false) ∨
    ∃ parent child f, Text.splitOnce? '.' path = some (parent, child) ∧
      (parent, f) ∈ s.entity.fields ∧ Entity.isRef f.type = true := by
  obtain ⟨-, steps, leaf, last, ⟨hundotted, hpath⟩, hreaches, hleaf⟩ :=
    Model.scalarTypeId?_eq_some.mp (scalarType_eq_ok.mp h)
  cases hreaches with
  | here =>
    rw [List.nil_append, String.intercalate_singleton] at hpath
    subst hpath
    obtain ⟨f, hf, htype⟩ := hleaf.exists_field
    have hnone := splitOnce?_undotted (hundotted leaf List.mem_cons_self)
    exact .inl ⟨hnone, f, hf, by rw [htype]; rfl⟩
  | @through _ next _ parent _ names hfield =>
    rw [List.cons_append, String.intercalate_cons_of_ne_nil (List.concat_ne_nil leaf names)] at hpath
    obtain ⟨f, hf, htype⟩ := hfield.exists_field
    have hsome := splitOnce?_eq_some.mpr ⟨hundotted parent List.mem_cons_self, hpath.symm⟩
    exact .inr ⟨parent, _, f, hsome, hf, by rw [htype]; rfl⟩

variable {ts : Tokens} (hts : derivedSelect s = .ok ts)
include hts

theorem mem_namedColumns {name expr : String} :
    ⟨expr, name⟩ ∈ namedColumns ts ↔ ∃ f ∈ s.entity.fields, ∃ child,
      Asks s.view f.1 f.2 child expr ∧ name = propertyName f.1 child := by
  rw [namedColumns_derivedSelect hts]
  exact mem_columns

/-- What is mapped below its reference is shown. -/
theorem shown_of_mappedBelow {usage : PathUsage} {id : String}
    (h : s.scalarType usage path = .ok id) (hmapped : MappedBelow s.view path) :
    ⟨s.view.refPath path, path⟩ ∈ namedColumns ts := by
  rw [mem_namedColumns hts]
  rcases field_of_scalarType h with ⟨-, f, hf, hplain⟩ | ⟨parent, child, f, hsome, hf, href⟩
  · exact ⟨(path, f), hf, none, .own hplain, rfl⟩
  · obtain ⟨t, ht, hown⟩ := hmapped parent child hsome
    obtain ⟨m, hm, hchild⟩ := Option.bind_eq_some_iff.mp ht
    obtain ⟨e, he, hplaced⟩ := Option.bind_eq_some_iff.mp hchild
    rw [refPath_of_child hsome ht hown, (splitOnce?_eq_some.mp hsome).2]
    exact ⟨(parent, f), hf, some child, .nested href hm (Entries.mem_of_lookup he) hplaced, rfl⟩

theorem mappedBelow_of_shown (hd : Distinct s)
    (h : ⟨s.view.refPath path, path⟩ ∈ namedColumns ts) : MappedBelow s.view path := by
  intro parent child hsome
  obtain ⟨g, hg, c, hasks, hname⟩ := (mem_namedColumns hts).mp h
  obtain ⟨hparent, rfl⟩ := splitOnce?_eq_some.mp hsome
  have hname : propertyName parent (some child) = propertyName g.1 c := hname
  obtain ⟨rfl, rfl⟩ := propertyName_inj hparent (hd.undotted g hg) hname
  cases hasks with
  | nested _ mapped held placed =>
    have hkeys := hd.keyed _ (Entries.mem_of_lookup mapped)
    refine ⟨_, ?_, fun u hu => (refPath_of_own hu).symm⟩
    rw [childTarget?, mapped, Option.bind_some, Entries.lookup_of_mem hkeys held,
      Option.bind_some, placed]

/-- A path to a scalar has the expression that is shown under its name exactly if it is mapped
below its reference. -/
theorem shows_refPath_iff (hd : Distinct s) {usage : PathUsage} {id : String}
    (h : s.scalarType usage path = .ok id) :
    Shows ts path (s.view.refPath path) ↔ MappedBelow s.view path := by
  constructor
  · exact fun hshows => mappedBelow_of_shown hts hd hshows.shown
  · intro hmapped
    have hshown := shown_of_mappedBelow hts h hmapped
    have hnodup : ((namedColumns ts).map (·.name)).Nodup :=
      namedColumns_derivedSelect hts ▸ hd.columns
    refine ⟨hshown, fun c hc hname => ?_⟩
    rw [List.inj_on_of_nodup_map hnodup hc hshown hname]

end

/-! ## Columns that are used -/

section
variable {s : Scope} {q : Query} {filter : Option Filter}

theorem mem_termPaths {path : String} {earlier fs : List SortField}
    (h : path ∈ termPaths earlier fs) : ∃ f ∈ earlier ++ fs, f.field = path := by
  induction fs generalizing earlier with
  | nil => cases h
  | cons f fs ih =>
    rw [List.append_cons]
    rcases List.mem_append.mp h with h | h
    · obtain ⟨g, hg, rfl⟩ := List.mem_map.mp h
      exact ⟨g, List.mem_append_left fs hg, rfl⟩
    · exact ih h

/-- All paths that a read names columns for have been validated. -/
theorem scalar_of_usedPaths (hvalid : validate s.model s.entity q filter = .ok ()) {path : String}
    (h : path ∈ usedPaths filter q.sort q.page) : ∃ usage id, s.scalarType usage path = .ok id := by
  obtain ⟨hfilter, hsort⟩ := scalar_of_validate hvalid
  have hfields : (∃ f ∈ q.sort, f.field = path) → ∃ usage id, s.scalarType usage path = .ok id := by
    rintro ⟨f, hf, rfl⟩
    exact ⟨.sort, hsort f hf⟩
  unfold usedPaths at h
  rcases List.mem_append.mp h with h | h
  · rcases List.mem_append.mp h with h | h
    · obtain ⟨c, hc, hpath⟩ := List.mem_flatMap.mp h
      have hproperty : c.property = path := by
        unfold conditionPaths at hpath
        split at hpath
        · cases hpath
        · exact (List.mem_singleton.mp hpath).symm
      cases filter with
      | none => cases hc
      | some f => exact ⟨.filter, hproperty ▸ hfilter f rfl c hc⟩
    · apply hfields
      unfold pagePaths at h
      split at h
      · cases h
      · split at h
        · cases h
        · exact mem_termPaths h
  · exact hfields (List.mem_map.mp h)

/-- Behind its select a validated read uses just the expressions of the paths that are asked for, in
the order of the filter, the page and the sort clause. The expression of a path that is mapped below
its reference is the one that is shown under its name, and where names are distinct that is so for
no other path: what is not mapped is neither shown nor refused. -/
theorem used_columns_shown {d : Dialect} {st : Statement} (hn : s.view.native = none)
    (hvalid : validate s.model s.entity q filter = .ok ())
    (h : select d s filter q.sort q.page q.params = .ok st) :
    ∃ ts rest, derivedSelect s = .ok ts ∧ st.tokens = ts ++ rest ∧
      usedExpressions rest = (usedPaths filter q.sort q.page).map s.view.refPath ∧
      (∀ path ∈ usedPaths filter q.sort q.page, MappedBelow s.view path →
        ⟨s.view.refPath path, path⟩ ∈ namedColumns ts) ∧
      (Distinct s → ∀ path ∈ usedPaths filter q.sort q.page,
        (Shows ts path (s.view.refPath path) ↔ MappedBelow s.view path)) := by
  obtain ⟨ts, rest, hts, htokens, huses⟩ := select_uses hn h
  refine ⟨ts, rest, hts, htokens, huses, fun path hpath hmapped => ?_, fun hd path hpath => ?_⟩
  · obtain ⟨usage, id, htype⟩ := scalar_of_usedPaths hvalid hpath
    exact shown_of_mappedBelow hts htype hmapped
  · obtain ⟨usage, id, htype⟩ := scalar_of_usedPaths hvalid hpath
    exact shows_refPath_iff hts hd htype

end

/-! ## An unmapped customer

The view of the orders says nothing about their customers. -/

def unmappedOrders : Scope :=
  let order : Entity := ⟨"Order", .entity, some "orders",
    [("id", ⟨.scalar "long", true, false, []⟩), ("customer", .ofType (.ref "Customer"))], []⟩
  let customer : Entity := ⟨"Customer", .entity, some "customers",
    [("name", .ofType (.scalar "string"))], []⟩
  ⟨⟨[("Customer", customer), ("Order", order)], []⟩, order, .empty "core"⟩

def ofAnn : Query :=
  { Query.empty with
    filter := some (.cond (.of "customer.name" .eq (.str "Ann")))
    page := .seek 10 [("id", .long 7)]
    sort := [⟨"id", .asc⟩] }

theorem unmappedCustomer_used :
    validate unmappedOrders.model unmappedOrders.entity ofAnn ofAnn.filter = .ok () ∧
    ∃ st ts rest, select .postgres unmappedOrders ofAnn.filter ofAnn.sort ofAnn.page [] = .ok st ∧
      st.text = "SELECT id AS \"id\" FROM \"orders\" WHERE customer.name = :b1 AND " ++
        "(id > :b2) ORDER BY id ASC LIMIT 10" ∧
      derivedSelect unmappedOrders = .ok ts ∧ st.tokens = ts ++ rest ∧
      usedExpressions rest = ["customer.name", "id", "id"] ∧
      Shows ts "id" "id" ∧ ¬Shows ts "customer.name" "customer.name" := by
  have hdistinct : Distinct unmappedOrders := ⟨by decide, by decide, by decide⟩
  have hselect : ∃ st, select .postgres unmappedOrders ofAnn.filter ofAnn.sort ofAnn.page [] =
      .ok st ∧ st.text = "SELECT id AS \"id\" FROM \"orders\" WHERE customer.name = :b1 AND " ++
        "(id > :b2) ORDER BY id ASC LIMIT 10" := ⟨_, rfl, by decide +kernel⟩
  obtain ⟨st, hst, htext⟩ := hselect
  obtain ⟨ts, rest, hts, htokens, huses, -, hshows⟩ := used_columns_shown rfl rfl hst
  have hid := (hshows hdistinct "id" (by decide)).mpr
  have hname := (hshows hdistinct "customer.name" (by decide)).mp
  refine ⟨rfl, st, ts, rest, hst, htext, hts, htokens, huses, hid ?_, fun hshown => ?_⟩
  · rintro parent child ⟨⟩
  · obtain ⟨t, ht, -⟩ := hname hshown "customer" "name" rfl
    cases ht

end Polystore.Sql
