import Polystore.Proofs.Outcome
import Polystore.Proofs.Sql.Reading
import Polystore.Query.Normalize

/-! # What filters mean, and what is written for them

The truth value of a filter follows the tree of the filter alone. Beside it stands the shape of
everything the compiler writes as a predicate: `Leaf` for single tests, `Stated` for trees. The
main statement, `predicate_renders`, is that whatever is written for a filter has that shape and
states an expression with the truth value of the filter. -/

namespace Polystore.Sql
set_option autoImplicit false

open Tokens (key spaced commaSeparated parenthesized)

/-! ## The truth of a filter -/

section
variable (s : Scope) (v : Test → Truth)

def jsonOperand (operand : Value) : Bind :=
  match JsonPath.operand? operand with
  | some (path, x) => ⟨JsonPath.fragment (JsonPath.segments path) x, "json"⟩
  | none => ⟨.null, "json"⟩

/-- The truth of a condition without its own negation. An empty list has no member, is part of every
list and shares nothing with any. -/
def operatorTruth (c : Condition) : Truth :=
  let expr := s.view.refPath c.property
  let typeId := s.model.bindTypeId s.entity c.property
  let compared (op : Keyword) := v (.compare expr op (scalarBind typeId c.value))
  let listed (empty : Truth) (t : Test) := if c.value.toList.isEmpty then empty else v t
  let among := listed .no (.among expr (c.value.toList.map (scalarBind typeId)))
  let contains := listed .yes (.native expr "@>" (listBind typeId c.value.toList))
  let overlaps := listed .no (.native expr "&&" (listBind typeId c.value.toList))
  match c.operator with
  | .eq => if c.value.isNull then v (.isNull expr) else compared .eq
  | .ne => if c.value.isNull then v (.isNotNull expr) else compared .ne
  | .gt => compared .gt
  | .ge => compared .gte
  | .lt => compared .lt
  | .le => compared .lte
  | .like => compared .like
  | .inList => among
  | .notIn => among.not
  | .range => v (.between expr (scalarBind typeId c.lower) (scalarBind typeId c.upper))
  | .arrayContains => contains
  | .arrayNotContains => contains.not
  | .arrayOverlaps => overlaps
  | .arrayNotOverlaps => overlaps.not
  | .jsonPathExists =>
    v (.present expr "#>" (Dialect.pathLiteral (JsonPath.segments (c.value.str?.getD ""))))
  | .jsonValueEq => v (.native expr "@>" (jsonOperand c.value))

def conditionTruth (c : Condition) : Truth := (operatorTruth s v c).flipIf c.negated

/-- A group of nothing has no truth value. -/
def groupTruth (c : Clause) : List Truth → Option Truth
  | [] => none
  | ts => some (Truth.group c ts)

mutual
/-- The truth of a filter; none if it has no conditions. -/
def filterTruth : Filter → Option Truth
  | .cond c => some (conditionTruth s v c)
  | .not f => (filterTruth f).map Truth.not
  | .group c fs => groupTruth c (filterTruths fs)
def filterTruths : List Filter → List Truth
  | [] => []
  | f :: fs => (filterTruth f).toList ++ filterTruths fs
end

/-! ## The truth of a seek page -/

/-- How a sort field compares with the last row received. -/
def seekTruthAt (after : Entries Value) (op : Keyword) (field : String) : Truth :=
  v (.compare (s.view.refPath field) op
    (scalarBind (s.model.bindTypeId s.entity field) ((after.lookup field).getD .null)))

/-- Whether a row comes behind the last one received: by the first sort field, or with the same
value in it by the others. -/
def laterTruth (after : Entries Value) : List SortField → Truth
  | [] => .no
  | f :: fs =>
    (seekTruthAt s v after (laterKey f.dir) f.field).or
      ((seekTruthAt s v after .eq f.field).and (laterTruth after fs))

def seekTruth (sort : List SortField) : Page → Option Truth
  | .offset _ _ => none
  | .seek _ after => if after.isEmpty then none else some (laterTruth s v after sort)

/-- What must hold beside a condition that may be missing. -/
def both : Option Truth → Option Truth → Option Truth
  | none, t => t
  | t, none => t
  | some a, some b => some (a.and b)

end

theorem both_none (t : Option Truth) : both t none = t := by cases t <;> rfl

theorem both_eq_none {t u : Option Truth} : both t u = none ↔ t = none ∧ u = none := by
  cases t <;> cases u <;> simp [both]

/-! ## Shapes of predicates -/

/-- The single tests that are written behind `n` markers, with their binds and what they state. The
expressions in them are those of property paths. -/
inductive Leaf (view : View) (n : Nat) : Tokens → List Bind → Expr → Prop
  | constant (b : Bool) : Leaf view n [.litBool b] [] (.const b)
  | isNull (path : String) :
    Leaf view n (spaced [[.raw (view.refPath path)], key .isNull]) []
      (.test (.isNull (view.refPath path)))
  | isNotNull (path : String) :
    Leaf view n (spaced [[.raw (view.refPath path)], key .isNotNull]) []
      (.test (.isNotNull (view.refPath path)))
  | compare (path : String) (op : Keyword) (b : Bind) (h : op ∈ comparisons) :
    Leaf view n (spaced [[.raw (view.refPath path)], key op, [marker (n + 1)]]) [b]
      (.test (.compare (view.refPath path) op b))
  | between (path : String) (lo hi : Bind) :
    Leaf view n (spaced [[.raw (view.refPath path)], key .between, [marker (n + 1)], key .and,
      [marker (n + 2)]]) [lo, hi] (.test (.between (view.refPath path) lo hi))
  | among (path : String) (bs : List Bind) (h : bs ≠ []) :
    Leaf view n (spaced [[.raw (view.refPath path)], key .in,
      parenthesized (commaSeparated (markersAfter n bs))]) bs
      (.test (.among (view.refPath path) bs))
  | outside (path : String) (bs : List Bind) (h : bs ≠ []) :
    Leaf view n (spaced [[.raw (view.refPath path)], key .not, key .in,
      parenthesized (commaSeparated (markersAfter n bs))]) bs
      (.not (.test (.among (view.refPath path) bs)))
  | native (path op : String) (b : Bind) (h : op = "@>" ∨ op = "&&") :
    Leaf view n (Dialect.binary (view.refPath path) op (marker (n + 1))) [b]
      (.test (.native (view.refPath path) op b))
  | present (path text : String) :
    Leaf view n (spaced [Dialect.binary (view.refPath path) "#>" (.litString text), key .isNotNull])
      [] (.test (.present (view.refPath path) "#>" text))

mutual
/-- The predicates that are written behind `n` markers. One that stands `alone` keeps its meaning
beside others: a group of several parts then has parentheses around it. The parts of a group all
stand alone. -/
inductive Stated (view : View) : Nat → Bool → Pred → List Bind → Expr → Prop
  | leaf {n : Nat} {alone : Bool} {ts : Tokens} {bs : List Bind} {e : Expr}
    (h : Leaf view n ts bs e) : Stated view n alone (.test ts false) bs e
  | negated {n : Nat} {alone : Bool} {ts : Tokens} {bs : List Bind} {e : Expr}
    (h : Leaf view n ts bs e) : Stated view n alone (.test ts true) bs (.not e)
  | group {n : Nat} {alone wrapped : Bool} {c : Clause} {ps : List Pred} {bs : List Bind}
    {e : Expr} {es : List Expr} (h : StatedAll view n true ps bs (e :: es))
    (hw : alone = true → es ≠ [] → wrapped = true) :
    Stated view n alone (.group c ps wrapped) bs (.chain c e es)
inductive StatedAll (view : View) : Nat → Bool → List Pred → List Bind → List Expr → Prop
  | nil {n : Nat} {alone : Bool} : StatedAll view n alone [] [] []
  | cons {n : Nat} {alone : Bool} {p : Pred} {ps : List Pred} {bs cs : List Bind} {e : Expr}
    {es : List Expr} (h : Stated view n alone p bs e)
    (hs : StatedAll view (n + bs.length) alone ps cs es) :
    StatedAll view n alone (p :: ps) (bs ++ cs) (e :: es)
end

section
variable {view : View} {n : Nat}

theorem Stated.anywhere {alone : Bool} {p : Pred} {bs : List Bind} {e : Expr}
    (h : Stated view n true p bs e) : Stated view n alone p bs e := by
  cases h with
  | leaf h => exact .leaf h
  | negated h => exact .negated h
  | group h hw => exact .group h fun _ => hw rfl

theorem StatedAll.append {n : Nat} {alone : Bool} {ps qs : List Pred} {bs cs : List Bind} {es fs : List Expr}
    (h : StatedAll view n alone ps bs es) (k : StatedAll view (n + bs.length) alone qs cs fs) :
    StatedAll view n alone (ps ++ qs) (bs ++ cs) (es ++ fs) := by
  match h with
  | .nil => exact k
  | @StatedAll.cons _ _ _ _ _ b c _ _ h hs =>
    rw [List.append_assoc]
    rw [List.length_append, ← Nat.add_assoc] at k
    exact .cons h (StatedAll.append hs k)

theorem StatedAll.length_eq {n : Nat} {alone : Bool} {ps : List Pred} {bs : List Bind} {es : List Expr}
    (h : StatedAll view n alone ps bs es) : ps.length = es.length := by
  match h with
  | .nil => rfl
  | .cons _ hs => rw [List.length_cons, List.length_cons, StatedAll.length_eq hs]

/-- Some tokens are a test with a certain truth value. -/
def Tests (view : View) (n : Nat) (ts : Tokens) (bs : List Bind)
    (meaning : (Test → Truth) → Truth) : Prop :=
  ∃ e, Leaf view n ts bs e ∧ ∀ v, meaning v = e.truth v

/-- A predicate has a certain truth value wherever it stands. -/
def States (view : View) (n : Nat) (p : Pred) (bs : List Bind)
    (meaning : (Test → Truth) → Truth) : Prop :=
  ∃ e, (∀ alone, Stated view n alone p bs e) ∧ ∀ v, meaning v = e.truth v

theorem Tests.states {ts : Tokens} {bs : List Bind} {meaning : (Test → Truth) → Truth}
    (h : Tests view n ts bs meaning) (negated : Bool) :
    States view n (.test ts negated) bs fun v => (meaning v).flipIf negated := by
  obtain ⟨e, he, hv⟩ := h
  cases negated with
  | false => exact ⟨e, fun _ => .leaf he, hv⟩
  | true => exact ⟨.not e, fun _ => .negated he, fun v => congrArg Truth.not (hv v)⟩

theorem states_constant (b : Bool) : States view n (.constant b) [] fun _ => .ofBool b :=
  ⟨.const b, fun _ => .leaf (.constant b), fun _ => rfl⟩

end

/-! ## Conditions -/

section
variable {view : View} {n : Nat} {typeId path : String}

theorem comparison_tests (path : String) {op : Keyword} (h : op ∈ comparisons) (x : Value) :
    Tests view n (comparison n (view.refPath path) op typeId x).1
      (comparison n (view.refPath path) op typeId x).2
      fun v => v (.compare (view.refPath path) op (scalarBind typeId x)) :=
  ⟨_, .compare path op _ h, fun _ => rfl⟩

theorem equality_tests {op nullTest : Keyword} (h : op ∈ comparisons) (x : Value) (t : Test)
    (ht : Leaf view n (spaced [[.raw (view.refPath path)], key nullTest]) [] (.test t)) :
    Tests view n (equality n (view.refPath path) op nullTest typeId x).1
      (equality n (view.refPath path) op nullTest typeId x).2
      fun v => if x.isNull then v t
        else v (.compare (view.refPath path) op (scalarBind typeId x)) := by
  unfold equality
  by_cases hx : x.isNull = true
  · rw [if_pos hx]
    simp only [if_pos hx]
    exact ⟨_, ht, fun _ => rfl⟩
  · rw [if_neg hx]
    simp only [if_neg hx]
    exact comparison_tests path h x

theorem ordering_tests {op : Operator} {k : Keyword} (h : k ∈ comparisons) {x : Value}
    {r : Bound Tokens} (hr : ordering n (view.refPath path) op k typeId x = .ok r) :
    Tests view n r.1 r.2 fun v => v (.compare (view.refPath path) k (scalarBind typeId x)) := by
  unfold ordering at hr
  split at hr
  · cases hr
  · cases hr
    exact comparison_tests path h x

theorem between_tests {x y : Value} {r : Bound Tokens}
    (hr : between n (view.refPath path) typeId x y = .ok r) :
    Tests view n r.1 r.2 fun v =>
      v (.between (view.refPath path) (scalarBind typeId x) (scalarBind typeId y)) := by
  unfold between at hr
  split at hr
  · cases hr
  · cases hr
    exact ⟨_, .between path _ _, fun _ => rfl⟩

theorem jsonPathTest_tests {d : Dialect} {x : Value} {ts : Tokens}
    (hr : jsonPathTest d (view.refPath path) x = .ok ts) :
    Tests view n ts [] fun v => v (.present (view.refPath path) "#>"
      (Dialect.pathLiteral (JsonPath.segments (x.str?.getD "")))) := by
  unfold jsonPathTest at hr
  split at hr
  · have h := lift_eq_ok.mp hr
    cases d with
    | ansi => cases h
    | postgres =>
      cases h
      exact ⟨_, .present path _, fun _ => rfl⟩
  · cases hr

theorem jsonValueTest_tests {d : Dialect} {x : Value} {r : Bound Tokens}
    (hr : jsonValueTest n d (view.refPath path) x = .ok r) :
    Tests view n r.1 r.2 fun v => v (.native (view.refPath path) "@>" (jsonOperand x)) := by
  unfold jsonValueTest at hr
  split at hr
  · cases hr
  · next p y hp =>
    obtain ⟨ts, hts, rfl⟩ := map_eq_ok.mp hr
    have h := lift_eq_ok.mp hts
    have hj : jsonOperand x = ⟨JsonPath.fragment (JsonPath.segments p) y, "json"⟩ := by
      rw [jsonOperand, hp]
    rw [hj]
    cases d with
    | ansi => cases h
    | postgres =>
      cases h
      exact ⟨_, .native path "@>" _ (.inl rfl), fun _ => rfl⟩

theorem map_asTest_states {r : Except Error (Bound Tokens)} {negated : Bool} {p : Pred}
    {bs : List Bind} {meaning : (Test → Truth) → Truth}
    (h : r.map (asTest negated) = .ok (p, bs))
    (hr : ∀ b, r = .ok b → Tests view n b.1 b.2 meaning) :
    States view n p bs fun v => (meaning v).flipIf negated := by
  obtain ⟨b, hb, he⟩ := map_eq_ok.mp h
  cases he
  exact (hr b hb).states negated

theorem membership_states {op : Operator} {xs : List Value} {negated : Bool} {p : Pred}
    {bs : List Bind}
    (h : membership n (view.refPath path) op typeId xs negated = .ok (p, bs)) :
    States view n p bs fun v =>
      ((if xs.isEmpty then .no
        else v (.among (view.refPath path) (xs.map (scalarBind typeId)))).flipIf
          (op == .notIn)).flipIf negated := by
  unfold membership at h
  by_cases hx : xs.isEmpty = true
  · rw [if_pos hx] at h
    cases h
    simp only [if_pos hx]
    have hc : ∀ m k : Bool, Truth.ofBool (m ^^ k) = (Truth.no.flipIf m).flipIf k := by decide
    simp only [← hc]
    exact states_constant _
  · rw [if_neg hx] at h
    split at h
    · cases h
    · cases h
      simp only [if_neg hx]
      have hne : xs.map (scalarBind typeId) ≠ [] := by
        intro he
        rw [List.map_eq_nil_iff.mp he] at hx
        exact hx rfl
      cases hop : op == Operator.notIn with
      | false =>
        exact Tests.states ⟨_, .among path _ hne, fun _ => rfl⟩ negated
      | true =>
        exact Tests.states ⟨_, .outside path _ hne, fun _ => rfl⟩ negated

theorem arrayTest_states {xs : List Value} {empty negated : Bool}
    {render : Token → Except PlanningError Tokens} {op : String} (hop : op = "@>" ∨ op = "&&")
    (hr : ∀ m ts, render m = .ok ts → ts = Dialect.binary (view.refPath path) op m) {p : Pred}
    {bs : List Bind} (h : arrayTest n typeId xs empty negated render = .ok (p, bs)) :
    States view n p bs fun v =>
      (if xs.isEmpty then .ofBool empty
        else v (.native (view.refPath path) op (listBind typeId xs))).flipIf negated := by
  unfold arrayTest at h
  by_cases hx : xs.isEmpty = true
  · rw [if_pos hx] at h
    cases h
    simp only [if_pos hx, Truth.flipIf_ofBool]
    exact states_constant _
  · rw [if_neg hx] at h
    simp only [if_neg hx]
    split at h
    · next ts hts =>
      cases h
      rw [hr _ _ hts]
      exact Tests.states ⟨_, .native path op _ hop, fun _ => rfl⟩ negated
    · cases h

theorem arrayContains_eq {d : Dialect} {expr : String} {m : Token} {ts : Tokens}
    (h : d.arrayContains expr m = .ok ts) : ts = Dialect.binary expr "@>" m := by
  cases d with
  | ansi => cases h
  | postgres => exact (Except.ok.inj h).symm

theorem arrayOverlaps_eq {d : Dialect} {expr : String} {m : Token} {ts : Tokens}
    (h : d.arrayOverlaps expr m = .ok ts) : ts = Dialect.binary expr "&&" m := by
  cases d with
  | ansi => cases h
  | postgres => exact (Except.ok.inj h).symm

end

theorem scalarType_eq_ok {s : Scope} {usage : PathUsage} {path id : String} :
    s.scalarType usage path = .ok id ↔ s.model.scalarTypeId? s.entity path = some id := by
  unfold Scope.scalarType
  cases s.model.scalarTypeId? s.entity path <;> simp

theorem bindTypeId_of_scalarType {s : Scope} {usage : PathUsage} {path id : String}
    (h : s.scalarType usage path = .ok id) : s.model.bindTypeId s.entity path = id := by
  unfold Model.bindTypeId
  rw [scalarType_eq_ok.mp h]

/-- What is written for a condition has the truth value of the condition, negated from outside or
not, and keeps it wherever it stands. -/
theorem condition_states {d : Dialect} {s : Scope} {n : Nat} {c : Condition} {negate : Bool}
    {p : Pred} {bs : List Bind} (h : condition d s n c negate = .ok (p, bs)) :
    States s.view n p bs fun v => (conditionTruth s v c).flipIf negate := by
  obtain ⟨typeId, hid, h⟩ := bind_eq_ok.mp h
  have hid := bindTypeId_of_scalarType hid
  have hflip : ∀ t : Truth, (t.flipIf c.negated).flipIf negate = t.flipIf (c.negated ^^ negate) := by
    intro t
    rw [Truth.flipIf_flipIf, Bool.xor_comm]
  simp only [conditionTruth, hflip]
  unfold operatorTruth
  simp only [hid]
  cases hop : c.operator <;> simp only [hop] at h ⊢
  case eq =>
    exact map_asTest_states h fun b hb => Except.ok.inj hb ▸
      equality_tests (by decide) _ _ (.isNull _)
  case ne =>
    exact map_asTest_states h fun b hb => Except.ok.inj hb ▸
      equality_tests (by decide) _ _ (.isNotNull _)
  case gt | ge | lt | le | like => exact map_asTest_states h fun _ => ordering_tests (by decide)
  case inList => exact membership_states h
  case notIn => exact membership_states h
  case range => exact map_asTest_states h fun _ => between_tests
  case arrayContains => exact arrayTest_states (.inl rfl) (fun _ _ => arrayContains_eq) h
  case arrayOverlaps => exact arrayTest_states (.inr rfl) (fun _ _ => arrayOverlaps_eq) h
  case arrayNotContains =>
    have := arrayTest_states (.inl rfl) (fun _ _ => arrayContains_eq) h
    simp only [← Truth.flipIf_not] at this
    exact this
  case arrayNotOverlaps =>
    have := arrayTest_states (.inr rfl) (fun _ _ => arrayOverlaps_eq) h
    simp only [← Truth.flipIf_not] at this
    exact this
  case jsonPathExists =>
    refine map_asTest_states h fun b hb => ?_
    obtain ⟨ts, hts, rfl⟩ := map_eq_ok.mp hb
    exact jsonPathTest_tests hts
  case jsonValueEq => exact map_asTest_states h fun _ => jsonValueTest_tests

/-! ## Trees -/

/-- What the compiler gives for a condition that may be missing: no predicate and no binds where
nothing is meant, else a predicate that states what is meant. -/
def Renders (view : View) (n : Nat) (alone : Bool) (r : Bound (Option Pred))
    (meaning : (Test → Truth) → Option Truth) : Prop :=
  match r.1 with
  | none => r.2 = [] ∧ ∀ v, meaning v = none
  | some p => ∃ e, Stated view n alone p r.2 e ∧ ∀ v, meaning v = some (e.truth v)

def RendersAll (view : View) (n : Nat) (alone : Bool) (r : Bound (List Pred))
    (meaning : (Test → Truth) → List Truth) : Prop :=
  ∃ es, StatedAll view n alone r.1 r.2 es ∧ ∀ v, meaning v = es.map (Expr.truth v)

theorem grouped_renders {view : View} {n : Nat} {wrap alone : Bool} {c : Clause}
    {r : Bound (List Pred)} {meaning : (Test → Truth) → List Truth}
    (h : RendersAll view n alone r meaning) (hw : wrap = true → alone = true)
    (hp : 1 < r.1.length → alone = true) :
    Renders view n wrap (grouped c wrap r.1, r.2) fun v => groupTruth c (meaning v) := by
  obtain ⟨ps, bs⟩ := r
  obtain ⟨es, hs, hv⟩ := h
  cases hs with
  | nil =>
    refine ⟨rfl, fun v => ?_⟩
    simp only [hv v]
    rfl
  | @cons _ _ p _ b _ e _ hq hs =>
    cases hs with
    | nil =>
      refine ⟨e, ?_, fun v => ?_⟩
      · show Stated view n wrap p (b ++ []) e
        rw [List.append_nil]
        cases alone with
        | true => exact hq.anywhere
        | false =>
          cases wrap with
          | true => cases hw rfl
          | false => exact hq
      · simp only [hv v]
        exact congrArg some (Truth.group_singleton c _)
    | @cons _ _ q _ b' _ f es hr hs =>
      have ha : alone = true := hp (by simp only [List.length_cons]; omega)
      subst ha
      refine ⟨.chain c e (f :: es), .group (.cons hq (.cons hr hs)) fun h _ => h, fun v => ?_⟩
      simp only [hv v, Expr.truth_chain]
      rfl

theorem map_groupTruth {c : Clause} {negate : Bool} (ts : List Truth) :
    (groupTruth c ts).map (Truth.flipIf negate) =
      groupTruth (if negate then c.flip else c) (ts.map (Truth.flipIf negate)) := by
  cases ts with
  | nil => rfl
  | cons t ts => exact congrArg some (Truth.flipIf_group negate c (t :: ts))

theorem length_of_predicates {d : Dialect} {s : Scope} {negate wrap : Bool} {fs : List Filter}
    {n : Nat} {r : Bound (List Pred)} (h : predicates d s n negate wrap fs = .ok r) :
    r.1.length ≤ fs.length := by
  induction fs generalizing n r with
  | nil =>
    unfold predicates at h
    cases h
    exact Nat.le_refl _
  | cons f fs ih =>
    unfold predicates at h
    obtain ⟨⟨p, bs⟩, -, h⟩ := bind_eq_ok.mp h
    obtain ⟨⟨ps, cs⟩, hs, h⟩ := bind_eq_ok.mp h
    cases h
    have := ih hs
    cases p with
    | none => exact Nat.le_succ_of_le this
    | some p => exact Nat.succ_le_succ this

mutual
/-- What is written for a filter has its truth value, negated or not. -/
theorem predicate_renders {d : Dialect} {s : Scope} (f : Filter) {n : Nat} {negate wrap : Bool}
    {r : Bound (Option Pred)} (h : predicate d s n negate wrap f = .ok r) :
    Renders s.view n wrap r fun v => (filterTruth s v f).map (Truth.flipIf negate) := by
  match f with
  | .cond c =>
    unfold predicate at h
    obtain ⟨⟨p, bs⟩, hc, rfl⟩ := map_eq_ok.mp h
    obtain ⟨e, he, hv⟩ := condition_states hc
    refine ⟨e, he wrap, fun v => ?_⟩
    simp only [filterTruth, Option.map_some, hv v]
  | .not f =>
    -- Nothing is written for a NOT: the filter below it is compiled with the other negation.
    unfold predicate at h
    have hf := predicate_renders f h
    have hn : ∀ v, ((filterTruth s v f).map Truth.not).map (Truth.flipIf negate) =
        (filterTruth s v f).map (Truth.flipIf (!negate)) := by
      intro v
      rw [Option.map_map]
      exact congrArg (Option.map · _) (funext (Truth.flipIf_not negate))
    simp only [filterTruth, hn]
    exact hf
  | .group c fs =>
    unfold predicate at h
    obtain ⟨⟨ps, bs⟩, hs, rfl⟩ := map_eq_ok.mp h
    simp only [filterTruth, map_groupTruth]
    refine grouped_renders (predicates_render fs hs) ?_ ?_
    · intro hw
      rw [hw, Bool.true_or]
    · intro hl
      have := length_of_predicates hs
      rw [Bool.or_eq_true, decide_eq_true_eq]
      exact .inr (Nat.lt_of_lt_of_le hl this)
theorem predicates_render {d : Dialect} {s : Scope} (fs : List Filter) {n : Nat}
    {negate wrap : Bool} {r : Bound (List Pred)} (h : predicates d s n negate wrap fs = .ok r) :
    RendersAll s.view n wrap r fun v => (filterTruths s v fs).map (Truth.flipIf negate) := by
  match fs with
  | [] =>
    unfold predicates at h
    cases h
    exact ⟨[], .nil, fun _ => rfl⟩
  | f :: fs =>
    unfold predicates at h
    obtain ⟨⟨p, bs⟩, hf, h⟩ := bind_eq_ok.mp h
    obtain ⟨⟨ps, cs⟩, hs, h⟩ := bind_eq_ok.mp h
    cases h
    have hr := predicate_renders f hf
    obtain ⟨es, hes, hv⟩ := predicates_render fs hs
    cases p with
    | none =>
      obtain ⟨rfl, hn⟩ := hr
      refine ⟨es, hes, fun v => ?_⟩
      simp only [filterTruths, Option.map_eq_none_iff.mp (hn v), Option.toList_none,
        List.nil_append, hv v]
    | some p =>
      obtain ⟨e, he, hw⟩ := hr
      refine ⟨e :: es, .cons he hes, fun v => ?_⟩
      obtain ⟨t, ht, hte⟩ := Option.map_eq_some_iff.mp (hw v)
      simp only [filterTruths, ht, Option.toList_some, List.singleton_append, List.map_cons, hte,
        hv v]
end

/-! ## Seek pages -/

section
variable {s : Scope} {after : Entries Value} {n : Nat}

theorem seekTest_states {op : Keyword} (hop : op ∈ comparisons) {field : String} {p : Pred}
    {bs : List Bind} (h : seekTest s after n op field = .ok (p, bs)) :
    States s.view n p bs fun v => seekTruthAt s v after op field := by
  unfold seekTest at h
  split at h
  · cases h
  · next x hx =>
    split at h
    · cases h
    · obtain ⟨typeId, hid, h⟩ := bind_eq_ok.mp h
      cases h
      simp only [seekTruthAt, hx, bindTypeId_of_scalarType hid, Option.getD_some]
      exact (comparison_tests field hop x).states false

theorem laterKey_mem (dir : SortDir) : laterKey dir ∈ comparisons := by cases dir <;> decide

/-- The conjunction of the equalities in the earlier fields and the test of the last one. -/
def termTruths (s : Scope) (v : Test → Truth) (after : Entries Value) (earlier : List SortField)
    (last : SortField) : List Truth :=
  earlier.map (fun f => seekTruthAt s v after .eq f.field) ++
    [seekTruthAt s v after (laterKey last.dir) last.field]

theorem seekTests_render {last : SortField} {earlier : List SortField} {r : Bound (List Pred)}
    (h : seekTests s after last n earlier = .ok r) :
    RendersAll s.view n true r fun v => termTruths s v after earlier last := by
  induction earlier generalizing n r with
  | nil =>
    obtain ⟨⟨p, bs⟩, hp, h⟩ := bind_eq_ok.mp h
    cases h
    obtain ⟨e, he, hv⟩ := seekTest_states (laterKey_mem last.dir) hp
    refine ⟨[e], ?_, fun v => ?_⟩
    · have := StatedAll.cons (he true) .nil
      rw [List.append_nil] at this
      exact this
    · simp only [termTruths, List.map_nil, List.nil_append, List.map_cons, hv v]
  | cons f fs ih =>
    obtain ⟨⟨p, bs⟩, hp, h⟩ := bind_eq_ok.mp h
    obtain ⟨⟨ps, cs⟩, hs, h⟩ := bind_eq_ok.mp h
    cases h
    obtain ⟨e, he, hv⟩ := seekTest_states (by decide) hp
    obtain ⟨es, hes, hw⟩ := ih hs
    refine ⟨e :: es, .cons (he true) hes, fun v => ?_⟩
    rw [List.map_cons, ← hw v, ← hv v]
    rfl

theorem RendersAll.ne_nil {view : View} {alone : Bool} {r : Bound (List Pred)}
    {meaning : (Test → Truth) → List Truth} (h : RendersAll view n alone r meaning)
    (v : Test → Truth) (hv : meaning v ≠ []) : r.1 ≠ [] := by
  obtain ⟨es, hs, he⟩ := h
  intro hnil
  have hl := hs.length_eq
  rw [hnil] at hl
  rw [he v, List.eq_nil_of_length_eq_zero hl.symm] at hv
  exact hv rfl

theorem RendersAll.chained {view : View} {r : Bound (List Pred)}
    {meaning : (Test → Truth) → List Truth} (h : RendersAll view n true r meaning) (c : Clause)
    (wrapped alone : Bool) (hne : r.1 ≠ []) (hw : alone = true → 1 < r.1.length → wrapped = true) :
    ∃ e, Stated view n alone (.group c r.1 wrapped) r.2 e ∧
      ∀ v, Truth.group c (meaning v) = e.truth v := by
  obtain ⟨es, hs, hv⟩ := h
  have hl := hs.length_eq
  cases es with
  | nil => exact absurd (List.eq_nil_of_length_eq_zero hl) hne
  | cons e es =>
    refine ⟨.chain c e es, .group hs fun ha hes => hw ha ?_, fun v => ?_⟩
    · have := List.length_pos_iff.mpr hes
      rw [hl, List.length_cons]
      omega
    · rw [hv v, Expr.truth_chain]

def termsTruths (s : Scope) (v : Test → Truth) (after : Entries Value) (earlier : List SortField) :
    List SortField → List Truth
  | [] => []
  | f :: fs => Truth.group .and (termTruths s v after earlier f) ::
      termsTruths s v after (earlier ++ [f]) fs

theorem seekTerms_render {earlier fs : List SortField} {r : Bound (List Pred)}
    (h : seekTerms s after n earlier fs = .ok r) :
    RendersAll s.view n true r fun v => termsTruths s v after earlier fs := by
  induction fs generalizing n earlier r with
  | nil =>
    cases h
    exact ⟨[], .nil, fun _ => rfl⟩
  | cons f fs ih =>
    obtain ⟨⟨ps, bs⟩, hp, h⟩ := bind_eq_ok.mp h
    obtain ⟨⟨ts, cs⟩, hs, h⟩ := bind_eq_ok.mp h
    cases h
    have hterm := seekTests_render hp
    have hne : ps ≠ [] := hterm.ne_nil (fun _ => .no) (List.concat_ne_nil _ _)
    obtain ⟨e, he, hv⟩ := hterm.chained .and true true hne fun _ _ => rfl
    obtain ⟨es, hes, hw⟩ := ih hs
    refine ⟨e :: es, .cons he hes, fun v => ?_⟩
    rw [List.map_cons, ← hw v, ← hv v]
    rfl

end

/-- The terms together say that the row comes later, where the earlier fields are equal. -/
theorem group_termsTruths (s : Scope) (v : Test → Truth) (after : Entries Value)
    (earlier fs : List SortField) :
    Truth.group .or (termsTruths s v after earlier fs) =
      (Truth.group .and (earlier.map fun f => seekTruthAt s v after .eq f.field)).and
        (laterTruth s v after fs) := by
  induction fs generalizing earlier with
  | nil => exact (Truth.and_no _).symm
  | cons f fs ih =>
    have hlast : ∀ t : Truth, Truth.group .and [t] = t := Truth.group_singleton .and
    simp only [termsTruths, termTruths, laterTruth, Truth.group_cons, ih, List.map_append,
      List.map_cons, List.map_nil, Truth.group_append, hlast]
    simp only [Truth.joined, Truth.and_or_left, Truth.and_assoc]

theorem seek_renders {s : Scope} {n : Nat} {sort : List SortField} {hasWhere : Bool} {page : Page}
    {r : Bound (Option Pred)} (h : seek s n sort hasWhere page = .ok r) :
    Renders s.view n hasWhere r fun v => seekTruth s v sort page := by
  unfold seek at h
  cases page with
  | offset offset limit =>
    cases h
    exact ⟨rfl, fun _ => rfl⟩
  | seek limit after =>
    simp only at h
    by_cases ha : after.isEmpty = true
    · rw [if_pos ha] at h
      cases h
      refine ⟨rfl, fun v => ?_⟩
      simp only [seekTruth, if_pos ha]
    · rw [if_neg ha] at h
      cases sort with
      | nil => cases h
      | cons f fs =>
        obtain ⟨⟨ts, bs⟩, ht, rfl⟩ := map_eq_ok.mp h
        have hr := seekTerms_render ht
        have hne : ts ≠ [] := hr.ne_nil (fun _ => .no) (List.cons_ne_nil _ _)
        obtain ⟨e, he, hv⟩ := hr.chained .or (hasWhere && 1 < ts.length)
          hasWhere hne fun hw hl => by simp only [hw, hl, decide_true, Bool.and_self]
        refine ⟨e, he, fun v => ?_⟩
        have hg := group_termsTruths s v after [] (f :: fs)
        rw [List.map_nil, Truth.group_nil] at hg
        simp only [seekTruth, if_neg ha, ← hv v]
        exact congrArg some (hg.trans (Truth.yes_and _)).symm

end Polystore.Sql
