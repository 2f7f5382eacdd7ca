import Polystore.Documents.Writing
import Polystore.Proofs.Documents.Seeking

/-! # What filters mean to document stores

The value of a filter follows its tree, with a negation where the tree has one. Whatever the
compiler writes for it, where negations stand at the tests and groups are turned, has this value
under every assignment of truth values to the tests. -/

namespace Polystore.Documents
set_option autoImplicit false

/-! ## The value of a filter -/

section
variable (s : Scope) (test : String → Value → Bool)

/-- The one test that the operator of a condition stands for. An operator that negates another one
stands for the same test. -/
def operatorTest (path typeId : String) (c : Condition) : Except Error (String × Value) :=
  let keyed (key : String) (w : Value) := (path, Value.map (entry key w))
  let compared (key : String) := (operand path typeId c.value).map (keyed key)
  let listed (key itemId : String) := (operands path itemId c.value.toList).map (keyed key)
  let itemId := (elementTypeId? typeId).getD typeId
  match c.operator with
  | .eq => if c.value.isNull then .ok (path, .null)
    else (operand path typeId c.value).map fun w => (path, w)
  | .ne => if c.value.isNull then .ok (keyed "$ne" .null) else compared "$ne"
  | .gt => compared "$gt"
  | .ge => compared "$gte"
  | .lt => compared "$lt"
  | .le => compared "$lte"
  | .like => .ok (keyed "$regex" (.str (likeRegex c.value.text)))
  | .inList => listed "$in" typeId
  | .notIn => listed "$nin" typeId
  | .range => do
    let low ← operand path typeId c.lower
    let high ← operand path typeId c.upper
    .ok (path, .map [("$gte", low), ("$lte", high)])
  | .arrayContains | .arrayNotContains => listed "$all" itemId
  | .arrayOverlaps | .arrayNotOverlaps => listed "$in" itemId
  | .jsonPathExists =>
    .ok (childPath path (c.value.str?.getD ""), .map (entry "$exists" (.bool true)))
  | .jsonValueEq =>
    match JsonPath.operand? c.value with
    | none => .error (.planning (.invalidOperand .jsonValueEq "an object with path and value"))
    | some (jsonPath, v) =>
      let full := childPath path jsonPath
      (operand full typeId v).map fun w => (full, w)

def conditionTest (c : Condition) : Except Error (String × Value) := do
  let typeId ← s.scalarType .filter c.property
  operatorTest (pathOf s.view c.property) typeId c

/-- A condition on an empty list, which no test decides. -/
def isConstant (c : Condition) : Bool := c.operator.isListShaped && c.value.toList.isEmpty

/-- Nothing is in an empty list, and every array has all of its elements and none of them. -/
def emptyListValue : Operator → Bool
  | .notIn | .arrayContains | .arrayNotOverlaps => true
  | _ => false

def isNegation : Operator → Bool
  | .arrayNotContains | .arrayNotOverlaps => true
  | _ => false

def conditionHolds (c : Condition) : Bool :=
  let value :=
    if isConstant c then emptyListValue c.operator
    else match conditionTest s c with
      | .ok (path, w) => isNegation c.operator ^^ test path w
      | .error _ => false
  value ^^ c.negated

/-- A group of nothing has no value. -/
def groupValue (c : Clause) : List Bool → Option Bool
  | [] => none
  | bs => some (groupHolds c bs)

mutual
/-- The value of a filter; none if it has no conditions. -/
def filterHolds? : Filter → Option Bool
  | .cond c => some (conditionHolds s test c)
  | .not f => (filterHolds? f).map not
  | .group c fs => groupValue c (filterValues fs)
def filterValues : List Filter → List Bool
  | [] => []
  | f :: fs => (filterHolds? f).toList ++ filterValues fs
end

/-- No filter at all and a filter without conditions exclude nothing. -/
def passes (filter : Option Filter) : Bool := (filter.bind (filterHolds? s test)).getD true

end

/-- A read of the documents of its base that have a value: they meet the filter of the base too, or
are filtered right behind its stages. -/
def Restricts (b : Base) (st : Statement) (value : (String → Value → Bool) → Bool) : Prop :=
  match b with
  | .filter d => st.pipeline = [] ∧ ∀ test, holds test st.filter = (holds test d && value test)
  | .pipeline stages => st.filter = [] ∧ ∃ p rest, st.pipeline = stages ++ filterStage p ++ rest ∧
    (∀ d, .filter d ∉ rest) ∧ ∀ test, holds test p = value test

/-! ## Paths of tests -/

/-- No condition is on a path that looks like an operator of the store. -/
def PlainPaths (s : Scope) (cs : List Condition) : Prop :=
  ∀ c ∈ cs, Text.startsWith "$" (pathOf s.view c.property) = false

theorem startsWith_dollar (s : String) : Text.startsWith "$" s = (s.toList.head? == some '$') := by
  have hlead : "$".toList = ['$'] := by decide
  unfold Text.startsWith
  rw [hlead]
  cases s.toList with
  | nil => rfl
  | cons c cs =>
    rw [List.isPrefixOf_cons_cons, List.isPrefixOf_nil_left, Bool.and_true, List.head?_cons]
    exact Bool.beq_comm

theorem not_connective {path : String} (h : Text.startsWith "$" path = false) :
    path ∉ connectives := by
  have hall : ∀ k ∈ connectives, Text.startsWith "$" k = true := by decide
  intro hmem
  rw [hall _ hmem] at h
  cases h

/-- A path below a path that is no operator is none either. -/
theorem startsWith_childPath {path : String} (h : Text.startsWith "$" path = false)
    (jsonPath : String) : Text.startsWith "$" (childPath path jsonPath) = false := by
  unfold childPath
  split
  · exact h
  · rw [startsWith_dollar] at h ⊢
    rw [String.toList_append, String.toList_append]
    cases hcs : path.toList with
    | nil => rfl
    | cons c cs =>
      rw [hcs] at h
      exact h

/-! ## Conditions -/

section
variable (test : String → Value → Bool)

theorem holds_constant (b : Bool) : holds test (constant b) = b := by
  rw [constant, holds_entry, entryHolds, if_pos rfl]

theorem holds_asNegated (negated : Bool) (d : Document) :
    holds test (asNegated negated d) = (holds test d ^^ negated) := by
  cases negated with
  | false => rw [asNegated, if_neg Bool.false_ne_true, Bool.xor_false]
  | true =>
    have hnor : entryHolds test "$nor" (.list [.map d]) = !anyHolds test [.map d] := by
      rw [entryHolds, if_neg (by decide), if_neg (by decide), if_pos rfl]
    rw [asNegated, if_pos rfl, holds_entry, hnor, anyHolds, anyHolds, itemHolds, Bool.or_false,
      Bool.xor_true]

end

/-- What is written is a single test under no connective. -/
def IsTest (r : Except Error Document) (t : Except Error (String × Value)) : Prop :=
  ∀ d, r = .ok d → ∃ path w, path ∉ connectives ∧ t = .ok (path, w) ∧ d = entry path w

section
variable {path typeId : String} {x : Except Error Value}

theorem isTest_map (h : Text.startsWith "$" path = false) (f : Value → Value) :
    IsTest (x.map fun w => entry path (f w)) (x.map fun w => (path, f w)) := by
  intro d hd
  obtain ⟨w, rfl, rfl⟩ := map_eq_ok.mp hd
  exact ⟨path, f w, not_connective h, rfl, rfl⟩

theorem isTest_ok (h : Text.startsWith "$" path = false) (w : Value) :
    IsTest (.ok (entry path w)) (.ok (path, w)) := isTest_map (x := .ok w) h id

theorem IsTest.unless {r : Except Error Document} {t : Except Error (String × Value)}
    (h : IsTest r t) (p : Bool) (e : Error) : IsTest (if p then .error e else r) t := by
  cases p with
  | true => exact nofun
  | false => exact h

theorem ordering_isTest (h : Text.startsWith "$" path = false) (op : Operator) (key : String)
    (v : Value) : IsTest (ordering path typeId op key v)
      ((operand path typeId v).map fun w => (path, .map (entry key w))) :=
  (isTest_map h fun w => .map (entry key w)).unless _ _

theorem between_isTest (h : Text.startsWith "$" path = false) (lower upper : Value) :
    IsTest (between path typeId lower upper) (do
      let low ← operand path typeId lower
      let high ← operand path typeId upper
      .ok (path, .map [("$gte", low), ("$lte", high)])) := by
  refine IsTest.unless ?_ _ _
  intro d hd
  obtain ⟨low, hlow, hd⟩ := bind_eq_ok.mp hd
  obtain ⟨high, hhigh, hd⟩ := bind_eq_ok.mp hd
  cases hd
  refine ⟨path, _, not_connective h, ?_, rfl⟩
  exact bind_eq_ok.mpr ⟨low, hlow, bind_eq_ok.mpr ⟨high, hhigh, rfl⟩⟩

theorem likeTest_isTest (h : Text.startsWith "$" path = false) (v : Value) :
    IsTest (likeTest path v) (.ok (path, .map (entry "$regex" (.str (likeRegex v.text))))) :=
  (isTest_ok h _).unless _ _

theorem equality_isTest (h : Text.startsWith "$" path = false) (v : Value) :
    IsTest (equality path typeId v) (if v.isNull then .ok (path, .null)
      else (operand path typeId v).map fun w => (path, w)) := by
  unfold equality
  cases v.isNull with
  | true => exact isTest_ok h .null
  | false => exact isTest_map h id

theorem inequality_isTest (h : Text.startsWith "$" path = false) (v : Value) :
    IsTest (inequality path typeId v) (if v.isNull then .ok (path, .map (entry "$ne" .null))
      else (operand path typeId v).map fun w => (path, .map (entry "$ne" w))) := by
  unfold inequality
  cases v.isNull with
  | true => exact isTest_ok h _
  | false => exact ordering_isTest h .ne "$ne" v

theorem jsonPathTest_isTest (h : Text.startsWith "$" path = false) (v : Value) :
    IsTest (jsonPathTest path v)
      (.ok (childPath path (v.str?.getD ""), .map (entry "$exists" (.bool true)))) := by
  cases v with
  | str jsonPath => exact isTest_ok (startsWith_childPath h jsonPath) _
  | _ => exact nofun

theorem jsonValueTest_isTest (h : Text.startsWith "$" path = false) {v w : Value}
    {jsonPath : String} (hv : JsonPath.operand? v = some (jsonPath, w)) :
    IsTest (jsonValueTest path typeId v)
      ((operand (childPath path jsonPath) typeId w).map fun w => (childPath path jsonPath, w)) := by
  unfold jsonValueTest
  rw [hv]
  exact isTest_map (startsWith_childPath h jsonPath) id

/-- A document has a fixed value, or that of a single test, negated or not. -/
def Decides (d : Document) (fixed : Option Bool) (t : Except Error (String × Value))
    (negated : Bool) : Prop :=
  match fixed with
  | some b => ∀ test, holds test d = (b ^^ negated)
  | none => ∃ path w, t = .ok (path, w) ∧ ∀ test, holds test d = (test path w ^^ negated)

theorem IsTest.decides {r : Except Error Document} {t : Except Error (String × Value)}
    (h : IsTest r t) {negated : Bool} {d : Document} (hd : r.map (asNegated negated) = .ok d) :
    Decides d none t negated := by
  obtain ⟨d, hr, rfl⟩ := map_eq_ok.mp hd
  obtain ⟨path, w, hpath, ht, rfl⟩ := h d hr
  refine ⟨path, w, ht, fun test => ?_⟩
  rw [holds_asNegated, holds_test test hpath]

/-- A condition on a list has a fixed value if the list is empty. -/
theorem listed_decides (h : Text.startsWith "$" path = false) {vs : List Value} {b negated : Bool}
    {itemId key : String} {d : Document} (hd : (if vs.isEmpty then .ok (constant (b ^^ negated))
      else (operands path itemId vs).map fun list => asNegated negated (testBy path key list)) =
        Except.ok (ε := Error) d) :
    Decides d (if vs.isEmpty then some b else none)
      ((operands path itemId vs).map fun w => (path, .map (entry key w))) negated := by
  cases hvs : vs.isEmpty with
  | true =>
    rw [hvs] at hd
    cases hd
    exact fun test => holds_constant test _
  | false =>
    rw [hvs] at hd
    have htest : IsTest ((operands path itemId vs).map (testBy path key))
        ((operands path itemId vs).map fun w => (path, .map (entry key w))) :=
      isTest_map h fun w => .map (entry key w)
    apply htest.decides
    rw [← hd]
    cases operands path itemId vs <;> rfl

theorem membership_decides (h : Text.startsWith "$" path = false) {op : Operator} {vs : List Value}
    {negated : Bool} {d : Document} (hd : membership path typeId op vs negated = .ok d) :
    Decides d (if vs.isEmpty then some (op == .notIn) else none)
      ((operands path typeId vs).map fun w =>
        (path, .map (entry (if op == .notIn then "$nin" else "$in") w))) negated := by
  refine listed_decides h ?_
  unfold membership at hd
  rw [← hd]
  cases hvs : vs.isEmpty with
  | true => rfl
  | false =>
    cases hnull : vs.any Value.isNull with
    | false => rfl
    | true =>
      rw [hvs, hnull] at hd
      cases hd

end

section
variable {s : Scope} {c : Condition} {negate : Bool} {d : Document}

/-- The value that a condition on an empty list has before any negation. -/
def fixedValue? (c : Condition) : Option Bool :=
  if isConstant c then some (emptyListValue c.operator ^^ isNegation c.operator) else none

theorem condition_decides (hpath : Text.startsWith "$" (pathOf s.view c.property) = false)
    (h : condition s c negate = .ok d) :
    Decides d (fixedValue? c) (conditionTest s c)
      (isNegation c.operator ^^ (c.negated ^^ negate)) := by
  obtain ⟨typeId, hid, h⟩ := bind_eq_ok.mp h
  have htest : conditionTest s c = operatorTest (pathOf s.view c.property) typeId c := by
    unfold conditionTest
    rw [hid]
    rfl
  rw [htest]
  unfold operatorTest fixedValue? isConstant
  cases hop : c.operator <;> simp only [hop, Operator.isListShaped, emptyListValue, isNegation,
    Bool.false_xor, Bool.true_xor, Bool.not_true, Bool.not_false, Bool.false_and, Bool.true_and,
    Bool.false_eq_true, if_false] at h ⊢
  case eq => exact (equality_isTest hpath _).decides h
  case ne => exact (inequality_isTest hpath _).decides h
  case gt | ge | lt | le => exact (ordering_isTest hpath _ _ _).decides h
  case like => exact (likeTest_isTest hpath _).decides h
  case range => exact (between_isTest hpath _ _).decides h
  case inList | notIn => exact membership_decides hpath h
  case arrayContains | arrayOverlaps | arrayNotContains | arrayNotOverlaps =>
    exact listed_decides hpath h
  case jsonPathExists => exact (jsonPathTest_isTest hpath _).decides h
  case jsonValueEq =>
    cases hv : JsonPath.operand? c.value with
    | none =>
      unfold jsonValueTest at h
      rw [hv] at h
      cases h
    | some o => exact (jsonValueTest_isTest hpath hv).decides h

/-- A condition that is not fixed is the outcome of its test. -/
theorem condition_tests (hpath : Text.startsWith "$" (pathOf s.view c.property) = false)
    (h : condition s c negate = .ok d) :
    isConstant c = true ∨ ∃ path w, conditionTest s c = .ok (path, w) := by
  have hdecides := condition_decides hpath h
  unfold fixedValue? at hdecides
  cases hconstant : isConstant c with
  | true => exact .inl rfl
  | false =>
    rw [hconstant] at hdecides
    obtain ⟨path, w, ht, -⟩ := hdecides
    exact .inr ⟨path, w, ht⟩

theorem condition_holds (hpath : Text.startsWith "$" (pathOf s.view c.property) = false)
    (h : condition s c negate = .ok d) (test : String → Value → Bool) :
    holds test d = (conditionHolds s test c ^^ negate) := by
  have hdecides := condition_decides hpath h
  unfold fixedValue? at hdecides
  unfold conditionHolds
  cases hconstant : isConstant c with
  | true =>
    rw [hconstant] at hdecides
    rw [hdecides test, if_pos rfl, Bool.xor_assoc, Bool.xor_assoc, ← Bool.xor_assoc (isNegation _),
      Bool.xor_self, Bool.false_xor]
  | false =>
    rw [hconstant] at hdecides
    obtain ⟨path, w, ht, hholds⟩ := hdecides
    rw [hholds test, ht, if_neg Bool.false_ne_true, Bool.xor_left_comm]
    dsimp only
    rw [Bool.xor_assoc, Bool.xor_assoc]

end

/-! ## Trees -/

theorem joined_holds (test : String → Value → Bool) (c : Clause) (ds : List Document) :
    (joined c ds).map (holds test) = groupValue c (ds.map (holds test)) := by
  cases ds with
  | nil => rfl
  | cons d ds =>
    obtain ⟨e, he, hholds⟩ := joined_some (c := c) (List.cons_ne_nil d ds)
    rw [he, Option.map_some, hholds test]
    rfl

/-- A negated group is the other group of what is negated in it. -/
theorem groupValue_negated (negate : Bool) (c : Clause) (bs : List Bool) :
    (groupValue c bs).map (· ^^ negate) =
      groupValue (if negate then c.flip else c) (bs.map (· ^^ negate)) := by
  have hflip : ∀ bs : List Bool, (groupHolds c bs ^^ negate) =
      groupHolds (if negate then c.flip else c) (bs.map (· ^^ negate)) := by
    intro bs
    cases negate <;> cases c <;>
      simp [groupHolds, Clause.flip, List.all_map, List.any_map, List.not_all_eq_any_not,
        List.not_any_eq_all_not]
  cases bs with
  | nil => rfl
  | cons b bs => exact congrArg some (hflip (b :: bs))

section
variable {s : Scope}

mutual
/-- What is written for a filter has its value, negated or not. -/
theorem predicate_holds (test : String → Value → Bool) (f : Filter) {negate : Bool}
    {r : Option Document}
    (hpaths : PlainPaths s f.conditions)
    (h : predicate s negate f = .ok r) :
    r.map (holds test) = (filterHolds? s test f).map (· ^^ negate) := by
  match f with
  | .cond c =>
    unfold predicate at h
    obtain ⟨d, hd, rfl⟩ := map_eq_ok.mp h
    have hpath := hpaths c (List.mem_singleton_self c)
    exact congrArg some (condition_holds hpath hd test)
  | .not f =>
    -- Nothing is written for a NOT: the filter below it is compiled with the other negation.
    unfold predicate at h
    have hnot : (fun b => !b ^^ negate) = (· ^^ !negate) := by
      funext b
      cases b <;> cases negate <;> rfl
    rw [predicate_holds test f hpaths h, filterHolds?, Option.map_map]
    exact congrArg (Option.map · _) hnot.symm
  | .group c fs =>
    unfold predicate at h
    obtain ⟨ds, hds, rfl⟩ := map_eq_ok.mp h
    rw [joined_holds, predicates_hold test fs hpaths hds, filterHolds?, groupValue_negated]
theorem predicates_hold (test : String → Value → Bool) (fs : List Filter) {negate : Bool}
    {ds : List Document}
    (hpaths : PlainPaths s (Filter.conditionsAll fs))
    (h : predicates s negate fs = .ok ds) :
    ds.map (holds test) = (filterValues s test fs).map (· ^^ negate) := by
  match fs with
  | [] =>
    unfold predicates at h
    cases h
    rfl
  | f :: fs =>
    unfold predicates at h
    obtain ⟨r, hr, h⟩ := bind_eq_ok.mp h
    obtain ⟨ds, hds, h⟩ := bind_eq_ok.mp h
    cases h
    obtain ⟨hf, hfs⟩ := List.forall_mem_append.mp hpaths
    have hone := predicate_holds test f hf hr
    rw [filterValues, List.map_append, List.map_append, predicates_hold test fs hfs hds,
      ← Option.toList_map, ← Option.toList_map, hone]
end

mutual
/-- All conditions of a filter that compiles have their tests. -/
theorem predicate_tests (f : Filter) {negate : Bool} {r : Option Document}
    (hpaths : PlainPaths s f.conditions)
    (h : predicate s negate f = .ok r) :
    ∀ c ∈ f.conditions, isConstant c = true ∨ ∃ path w, conditionTest s c = .ok (path, w) := by
  match f with
  | .cond c =>
    unfold predicate at h
    obtain ⟨d, hd, rfl⟩ := map_eq_ok.mp h
    intro c' hc'
    cases List.mem_singleton.mp hc'
    exact condition_tests (hpaths c hc') hd
  | .not f =>
    unfold predicate at h
    exact predicate_tests f hpaths h
  | .group _ fs =>
    unfold predicate at h
    obtain ⟨ds, hds, rfl⟩ := map_eq_ok.mp h
    exact predicates_test fs hpaths hds
theorem predicates_test (fs : List Filter) {negate : Bool} {ds : List Document}
    (hpaths : PlainPaths s (Filter.conditionsAll fs))
    (h : predicates s negate fs = .ok ds) : ∀ c ∈ Filter.conditionsAll fs,
      isConstant c = true ∨ ∃ path w, conditionTest s c = .ok (path, w) := by
  match fs with
  | [] => exact nofun
  | f :: fs =>
    unfold predicates at h
    obtain ⟨r, hr, h⟩ := bind_eq_ok.mp h
    obtain ⟨ds, hds, -⟩ := bind_eq_ok.mp h
    obtain ⟨hf, hfs⟩ := List.forall_mem_append.mp hpaths
    exact List.forall_mem_append.mpr ⟨predicate_tests f hf hr, predicates_test fs hfs hds⟩
end

end

section
variable (s : Scope) (test : String → Value → Bool)

theorem groupValue_eq_none {c : Clause} {bs : List Bool} : groupValue c bs = none ↔ bs = [] := by
  cases bs with
  | nil => exact iff_of_true rfl rfl
  | cons b bs => exact iff_of_false nofun nofun

mutual
theorem filterHolds?_eq_none (f : Filter) : filterHolds? s test f = none ↔ f.conditions = [] := by
  match f with
  | .cond c => exact iff_of_false nofun nofun
  | .not f => rw [filterHolds?, Option.map_eq_none_iff, filterHolds?_eq_none f, Filter.conditions]
  | .group c fs =>
    rw [filterHolds?, groupValue_eq_none, filterValues_eq_nil fs, Filter.conditions]
theorem filterValues_eq_nil (fs : List Filter) :
    filterValues s test fs = [] ↔ Filter.conditionsAll fs = [] := by
  match fs with
  | [] => exact iff_of_true rfl rfl
  | f :: fs =>
    rw [filterValues, Filter.conditionsAll, List.append_eq_nil_iff, List.append_eq_nil_iff,
      Option.toList_eq_nil_iff, filterHolds?_eq_none f, filterValues_eq_nil fs]
end

end

/-! ## Statements -/

theorem filter_not_mem_sortStage (d : Document) (keys : List SortKey) :
    .filter d ∉ sortStage keys := by
  unfold sortStage
  split <;> simp

theorem filter_not_mem_skipStage (d : Document) (n : UInt64) : .filter d ∉ skipStage n := by
  unfold skipStage
  split <;> simp

section
variable {s : Scope} {filter : Option Filter}
  (hpaths : ∀ f ∈ filter, PlainPaths s f.conditions)
include hpaths

theorem predicate?_passes {p : Option Document} (h : predicate? s filter = .ok p)
    (test : String → Value → Bool) : holds test (p.getD []) = passes s test filter := by
  cases filter with
  | none =>
    cases h
    exact holds_nil
  | some f =>
    have hmap := predicate_holds test f (hpaths f rfl) h
    simp only [Bool.xor_false, Option.map_id'] at hmap
    rw [passes, Option.bind_some, ← hmap]
    cases p with
    | none => exact holds_nil
    | some d => rfl

theorem select_restricts {sort : List SortField} {page : Page} {params : Entries Value}
    {st : Statement} (h : select s filter sort page params = .ok st) :
    ∃ b later, base s.view params = .ok b ∧ seek s sort page = .ok later ∧
      Restricts b st fun test => passes s test filter && holds test (later.getD []) := by
  obtain ⟨collection, p, later, b, -, hp, hlater, hb, rfl⟩ := select_eq_ok.mp h
  have hboth : ∀ test, holds test (both (p.getD []) (later.getD [])) =
      (passes s test filter && holds test (later.getD [])) := by
    intro test
    rw [holds_both, predicate?_passes hpaths hp]
  refine ⟨b, later, hb, hlater, ?_⟩
  cases b with
  | filter d =>
    refine ⟨rfl, fun test => (holds_both d _).trans ?_⟩
    rw [hboth]
  | pipeline stages =>
    refine ⟨rfl, both (p.getD []) (later.getD []), sortStage (sortKeys s.view sort) ++
      skipStage (skipped page) ++ [.limit page.limit], ?_, fun d => ?_, hboth⟩
    · simp only [readOf, List.append_assoc]
    · simp [filter_not_mem_sortStage, filter_not_mem_skipStage]

theorem count_restricts {params : Entries Value} {st : Statement}
    (h : count s filter params = .ok st) :
    ∃ b, base s.view params = .ok b ∧ Restricts b st fun test => passes s test filter := by
  obtain ⟨collection, -, h⟩ := bind_eq_ok.mp h
  obtain ⟨p, hp, h⟩ := bind_eq_ok.mp h
  obtain ⟨b, hb, h⟩ := bind_eq_ok.mp h
  refine ⟨b, hb, ?_⟩
  cases b with
  | filter d =>
    cases h
    refine ⟨rfl, fun test => (holds_both d _).trans ?_⟩
    rw [predicate?_passes hpaths hp]
  | pipeline stages =>
    cases h
    exact ⟨rfl, p.getD [], [.count countField], rfl, by simp, predicate?_passes hpaths hp⟩

theorem whereDocument_passes {d : Document} (h : whereDocument s filter = .ok d)
    (test : String → Value → Bool) : holds test d = passes s test filter := by
  obtain ⟨p, hp, rfl⟩ := map_eq_ok.mp h
  exact predicate?_passes hpaths hp test

/-- Below paths that are no operators, every assignment of truth values to the tests gives the
document of a filter the value of the filter. There is no document where there are no conditions.
Reads are restricted to what the filter of the view, the filter of the caller and the seek page let
through together, and writes to what the filter lets through. -/
theorem compiled_filters_hold :
    (∀ f ∈ filter, ∀ r, predicate s false f = .ok r → (r = none ↔ f.conditions = []) ∧
      (∀ c ∈ f.conditions, isConstant c = true ∨ ∃ path w, conditionTest s c = .ok (path, w)) ∧
      ∀ test, r.map (holds test) = filterHolds? s test f) ∧
    (∀ sort page params st, select s filter sort page params = .ok st →
      ∃ b later, base s.view params = .ok b ∧ seek s sort page = .ok later ∧
        Restricts b st fun test => passes s test filter && holds test (later.getD [])) ∧
    (∀ params st, count s filter params = .ok st →
      ∃ b, base s.view params = .ok b ∧ Restricts b st fun test => passes s test filter) ∧
    (∀ w st, w.filter = filter → update s w = .ok st →
      ∀ test, holds test st.filter = passes s test filter) ∧
    ∀ w st, w.filter = filter → delete s w = .ok st →
      ∀ test, holds test st.filter = passes s test filter := by
  refine ⟨fun f hf r hr => ?_, fun sort page params st h => select_restricts hpaths h,
    fun params st h => count_restricts hpaths h, ?_, ?_⟩
  · have hholds : ∀ test, r.map (holds test) = filterHolds? s test f := by
      intro test
      rw [predicate_holds test f (hpaths f hf) hr]
      simp only [Bool.xor_false, Option.map_id']
    refine ⟨?_, predicate_tests f (hpaths f hf) hr, hholds⟩
    rw [← filterHolds?_eq_none s (fun _ _ => true) f, ← hholds, Option.map_eq_none_iff]
  · rintro w st rfl h test
    obtain ⟨sets, -, h⟩ := bind_eq_ok.mp h
    obtain ⟨d, hd, h⟩ := bind_eq_ok.mp h
    cases h
    exact whereDocument_passes hpaths hd test
  · rintro w st rfl h test
    obtain ⟨d, hd, rfl⟩ := map_eq_ok.mp h
    exact whereDocument_passes hpaths hd test

end

def stocked : Scope :=
  let entity : Entity := ⟨"Item", .entity, some "items",
    [("qty", .ofType (.scalar "int")), ("tags", .ofType (.scalar "string"))], []⟩
  ⟨⟨[("Item", entity)], []⟩, entity, ⟨"core", [("qty", .direct "stock.qty")], none⟩⟩

/-- Neither a large stock nor a test of an empty list; the empty group is dropped. -/
def shortInStock : Filter :=
  .not (.group .or [.cond (.of "qty" .gt (.int 17)), .group .and [],
    .cond (.of "tags" .arrayNotContains (.list []))])

def shortDocument : Document :=
  entry "$and" (.list [
    .map (entry "$nor" (.list [.map (testBy "stock.qty" "$gt" (.int 17))])), .map (constant true)])

theorem shortInStock_holds :
    predicate stocked false shortInStock = .ok (some shortDocument) ∧
      shortInStock.conditions ≠ [] ∧ ∀ test, holds test shortDocument =
        !(test "stock.qty" (.map (entry "$gt" (.int 17))) || false) := by
  have hpaths : ∀ f ∈ some shortInStock, PlainPaths stocked f.conditions := by
    rintro f ⟨⟩ c hc
    revert c hc
    decide +kernel
  have hpredicate : predicate stocked false shortInStock = .ok (some shortDocument) := rfl
  obtain ⟨hnone, -, hholds⟩ := (compiled_filters_hold hpaths).1 shortInStock rfl _ hpredicate
  refine ⟨hpredicate, fun h => Option.some_ne_none _ (hnone.mpr h), fun test => ?_⟩
  have hqty : conditionHolds stocked test (.of "qty" .gt (.int 17)) =
      test "stock.qty" (.map (entry "$gt" (.int 17))) :=
    (Bool.xor_false _).trans (Bool.false_xor _)
  have hvalue : filterHolds? stocked test shortInStock =
      some !(test "stock.qty" (.map (entry "$gt" (.int 17))) || false) := by
    rw [← hqty]
    rfl
  exact Option.some.inj ((hholds test).trans hvalue)

end Polystore.Documents
