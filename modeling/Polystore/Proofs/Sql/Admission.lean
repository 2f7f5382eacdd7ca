import Polystore.Proofs.Sql.Clauses
import Polystore.Query.Validation

/-! # Which validated queries compile

Validation answers for the property paths, so that only operands are left to fail. For PostgreSQL,
which has all operators, a read compiles exactly if the operands of all conditions and the values
of the page are such as their tests can take. -/

namespace Polystore
set_option autoImplicit false

/-! ## Operands that can be tested -/

def Condition.Admissible (c : Condition) : Prop :=
  match c.operator with
  | .gt | .ge | .lt | .le | .like => c.value.isNull = false
  | .inList | .notIn => ∀ v ∈ c.value.toList, v.isNull = false
  | .range => c.lower.isNull = false ∧ c.upper.isNull = false
  | .jsonPathExists => ∃ path, c.value = .str path
  | .jsonValueEq => ∃ m path, c.value = .map m ∧ m.lookup "path" = some (.str path)
  | .eq | .ne | .arrayContains | .arrayNotContains | .arrayOverlaps | .arrayNotOverlaps => True

/-- There is a value to seek behind. -/
def Sought (after : Entries Value) (field : String) : Prop :=
  ∃ v, after.lookup field = some v ∧ v.isNull = false

def Page.Admissible (sort : List SortField) : Page → Prop
  | offset _ _ => True
  | seek _ after => after = [] ∨ sort ≠ [] ∧ ∀ f ∈ sort, Sought after f.field

/-! ## Validated paths -/

theorem scalar_of_requireScalars {m : Model} {e : Entity} {usage : PathUsage}
    {paths : List String} (h : requireScalars m e usage paths = .ok ()) :
    ∀ path ∈ paths, ∃ id, m.scalarTypeId? e path = some id := by
  induction paths with
  | nil => exact nofun
  | cons path paths ih =>
    obtain ⟨⟨⟩, hpath, hpaths⟩ := bind_eq_ok.mp h
    refine List.forall_mem_cons.mpr ⟨?_, ih hpaths⟩
    unfold requireScalar at hpath
    split at hpath
    · cases hpath
    · split at hpath
      · rename_i hsome
        exact Option.isSome_iff_exists.mp hsome
      · cases hpath

theorem scalarType_ok {s : Scope} (usage : PathUsage) {path : String}
    (h : ∃ id, s.model.scalarTypeId? s.entity path = some id) :
    ∃ id, s.scalarType usage path = .ok id := by
  obtain ⟨id, hid⟩ := h
  exact ⟨id, Sql.scalarType_eq_ok.mpr hid⟩

/-- The paths of a validated query lead to scalar fields. -/
theorem scalar_of_validate {s : Scope} {q : Query} {filter : Option Filter}
    (h : validate s.model s.entity q filter = .ok ()) :
    (∀ f, filter = some f →
      ∀ c ∈ f.conditions, ∃ id, s.scalarType .filter c.property = .ok id) ∧
    ∀ f ∈ q.sort, ∃ id, s.scalarType .sort f.field = .ok id := by
  obtain ⟨⟨⟩, hfilter, h⟩ := bind_eq_ok.mp h
  obtain ⟨⟨⟩, hsort, -⟩ := bind_eq_ok.mp h
  constructor
  · rintro f rfl c hc
    exact scalarType_ok .filter (scalar_of_requireScalars hfilter _ (List.mem_map_of_mem hc))
  · exact fun f hf =>
      scalarType_ok .sort (scalar_of_requireScalars hsort _ (List.mem_map_of_mem hf))

/-! ## Decided outcomes -/

/-- There is a result if something holds, and else a planning error. -/
inductive Decided {α : Type} (p : Prop) : Except Error α → Prop
  | ok (h : p) (a : α) : Decided p (.ok a)
  | error (h : ¬p) (e : PlanningError) : Decided p (.error (.planning e))

namespace Decided
variable {α β : Type} {p q : Prop} {x : Except Error α}

theorem iff (h : Decided p x) : (∃ a, x = .ok a) ↔ p := by
  cases h with
  | ok h a => exact ⟨fun _ => h, fun _ => ⟨a, rfl⟩⟩
  | error h e => exact ⟨nofun, fun hp => absurd hp h⟩

theorem planning (h : Decided p x) {e : Error} (hx : x = .error e) : ∃ cause, e = .planning cause := by
  cases h with
  | ok h a => cases hx
  | error h cause =>
    cases hx
    exact ⟨cause, rfl⟩

theorem congr (h : Decided p x) (hpq : p ↔ q) : Decided q x := by
  cases h with
  | ok h a => exact .ok (hpq.mp h) a
  | error h e => exact .error (fun hq => h (hpq.mpr hq)) e

theorem map (h : Decided p x) (f : α → β) : Decided p (x.map f) := by
  cases h with
  | ok h a => exact .ok h (f a)
  | error h e => exact .error h e

theorem bind {f : α → Except Error β} (h : Decided p x) (hf : ∀ a, Decided q (f a)) :
    Decided (p ∧ q) (x >>= f) := by
  cases h with
  | error h e => exact .error (fun hpq => h hpq.1) e
  | ok h a =>
    show Decided (p ∧ q) (f a)
    exact (hf a).congr ⟨fun hq => ⟨h, hq⟩, And.right⟩

/-- A step that always succeeds decides nothing. -/
theorem next {f : α → Except Error β} (h : Decided p x) (hf : ∀ a, ∃ b, f a = .ok b) :
    Decided p (x >>= f) := by
  cases h with
  | error h e => exact .error h e
  | ok h a =>
    obtain ⟨b, hb⟩ := hf a
    show Decided p (f a)
    rw [hb]
    exact .ok h b

end Decided

theorem Decided.unless {α : Type} (b : Bool) (e : PlanningError) (a : α) :
    Decided (b = false) (if b then .error (.planning e) else .ok a) := by
  cases b with
  | true => exact .error nofun e
  | false => exact .ok rfl a

namespace Sql

/-! ## Conditions -/

section
variable {n : Nat} {expr typeId : String} {v : Value} {vs : List Value}

theorem ordering_decided (op : Operator) (k : Keyword) :
    Decided (v.isNull = false) (ordering n expr op k typeId v) :=
  Decided.unless _ _ _

theorem membership_decided (op : Operator) (negated : Bool) :
    Decided (∀ v ∈ vs, v.isNull = false) (membership n expr op typeId vs negated) := by
  unfold membership
  dsimp only
  split
  · rename_i hempty
    rw [List.isEmpty_iff.mp hempty]
    exact .ok nofun _
  · refine (Decided.unless _ _ _).congr ?_
    rw [List.any_eq_false]
    simp only [Bool.not_eq_true]

theorem between_decided {lower upper : Value} :
    Decided (lower.isNull = false ∧ upper.isNull = false) (between n expr typeId lower upper) :=
  (Decided.unless _ _ _).congr Bool.or_eq_false_iff

theorem arrayTest_decided (empty negated : Bool) {render : Token → Except PlanningError Tokens}
    (h : ∀ t, ∃ ts, render t = .ok ts) :
    Decided True (arrayTest n typeId vs empty negated render) := by
  obtain ⟨ts, hts⟩ := h (marker (n + 1))
  unfold arrayTest
  split
  · exact .ok trivial _
  · rw [hts]
    exact .ok trivial _

theorem jsonPathTest_decided :
    Decided (∃ path, v = .str path) (jsonPathTest .postgres expr v) := by
  cases v with
  | str path => exact .ok ⟨path, rfl⟩ _
  | _ => exact .error nofun _

theorem jsonValueTest_decided :
    Decided (∃ m path, v = .map m ∧ m.lookup "path" = some (.str path))
      (jsonValueTest n .postgres expr v) := by
  cases v with
  | map m =>
    unfold jsonValueTest JsonPath.operand?
    dsimp only
    split
    · rename_i hnone
      split at hnone
      · cases hnone
      · rename_i hpath
        refine .error ?_ _
        rintro ⟨_, path, ⟨⟩, hlookup⟩
        exact hpath path hlookup
    · rename_i hsome
      split at hsome
      · rename_i path hlookup
        exact .ok ⟨m, path, rfl, hlookup⟩ _
      · cases hsome
  | _ => exact .error nofun _

end

section
variable {s : Scope}

theorem condition_decided {c : Condition} (n : Nat) (negate : Bool)
    (h : ∃ id, s.scalarType .filter c.property = .ok id) :
    Decided c.Admissible (condition .postgres s n c negate) := by
  obtain ⟨typeId, htype⟩ := h
  unfold condition Condition.Admissible
  rw [htype]
  simp only [bind, Except.bind]
  cases c.operator <;> dsimp only
  case eq | ne => exact .ok trivial _
  case gt | ge | lt | le | like => exact (ordering_decided _ _).map _
  case inList | notIn => exact membership_decided _ _
  case range => exact between_decided.map _
  case arrayContains | arrayNotContains | arrayOverlaps | arrayNotOverlaps =>
    exact arrayTest_decided _ _ fun t => ⟨_, rfl⟩
  case jsonPathExists => exact (jsonPathTest_decided.map _).map _
  case jsonValueEq => exact jsonValueTest_decided.map _

/-! ## Trees -/

mutual
theorem predicate_decided (f : Filter) (n : Nat) (negate wrap : Bool)
    (h : ∀ c ∈ f.conditions, ∃ id, s.scalarType .filter c.property = .ok id) :
    Decided (∀ c ∈ f.conditions, c.Admissible) (predicate .postgres s n negate wrap f) := by
  match f with
  | .cond c =>
    rw [predicate]
    refine ((condition_decided n negate (h c (List.mem_singleton_self c))).map _).congr ?_
    exact List.forall_mem_singleton.symm
  | .not f =>
    rw [predicate]
    exact predicate_decided f n (!negate) wrap h
  | .group clause fs =>
    rw [predicate]
    exact (predicates_decided fs n negate _ h).map _
theorem predicates_decided (fs : List Filter) (n : Nat) (negate wrap : Bool)
    (h : ∀ c ∈ Filter.conditionsAll fs, ∃ id, s.scalarType .filter c.property = .ok id) :
    Decided (∀ c ∈ Filter.conditionsAll fs, c.Admissible)
      (predicates .postgres s n negate wrap fs) := by
  match fs with
  | [] => exact .ok nofun _
  | f :: fs =>
    obtain ⟨hf, hfs⟩ := List.forall_mem_append.mp h
    rw [predicates, Filter.conditionsAll]
    refine Decided.congr ?_ List.forall_mem_append.symm
    exact (predicate_decided f n negate wrap hf).bind fun r =>
      (predicates_decided fs _ negate wrap hfs).next fun _ => ⟨_, rfl⟩
end

theorem predicate?_decided (filter : Option Filter) (wrap : Bool)
    (h : ∀ f, filter = some f →
      ∀ c ∈ f.conditions, ∃ id, s.scalarType .filter c.property = .ok id) :
    Decided (∀ f, filter = some f → ∀ c ∈ f.conditions, c.Admissible)
      (predicate? .postgres s wrap filter) := by
  cases filter with
  | none => exact .ok nofun _
  | some f =>
    refine (predicate_decided f 0 false wrap (h f rfl)).congr ⟨?_, fun h => h f rfl⟩
    rintro h _ ⟨⟩
    exact h

/-! ## Pages -/

variable {after : Entries Value}

theorem seekTest_decided {field : String} (n : Nat) (op : Keyword)
    (h : ∃ id, s.scalarType .sort field = .ok id) :
    Decided (Sought after field) (seekTest s after n op field) := by
  obtain ⟨typeId, htype⟩ := h
  unfold seekTest
  cases hlookup : after.lookup field with
  | none =>
    refine .error ?_ _
    rintro ⟨v, hv, -⟩
    rw [hlookup] at hv
    cases hv
  | some v =>
    dsimp only
    rw [htype]
    refine (Decided.unless _ _ _).congr ⟨?_, ?_⟩
    · exact fun hnull => ⟨v, hlookup, hnull⟩
    · rintro ⟨w, hw, hnull⟩
      rw [hlookup] at hw
      cases hw
      exact hnull

theorem seekTests_decided (last : SortField) (earlier : List SortField) (n : Nat)
    (h : ∀ f ∈ earlier ++ [last], ∃ id, s.scalarType .sort f.field = .ok id) :
    Decided (∀ f ∈ earlier ++ [last], Sought after f.field)
      (seekTests s after last n earlier) := by
  induction earlier generalizing n with
  | nil =>
    have hlast : Decided (Sought after last.field)
        (seekTest s after n (laterKey last.dir) last.field) :=
      seekTest_decided n _ (h last (List.mem_singleton_self last))
    refine (hlast.next fun _ => ⟨_, rfl⟩).congr ?_
    rw [List.nil_append, List.forall_mem_singleton]
  | cons f fs ih =>
    obtain ⟨hf, hfs⟩ := List.forall_mem_cons.mp h
    refine Decided.congr ?_ List.forall_mem_cons.symm
    exact (seekTest_decided n .eq hf).bind fun r => (ih _ hfs).next fun _ => ⟨_, rfl⟩

/-- Each term asks for the values of its field and of all earlier ones. -/
theorem seekTerms_decided (fs earlier : List SortField) (n : Nat)
    (h : ∀ f ∈ earlier ++ fs, ∃ id, s.scalarType .sort f.field = .ok id) :
    Decided (fs ≠ [] → ∀ f ∈ earlier ++ fs, Sought after f.field)
      (seekTerms s after n earlier fs) := by
  induction fs generalizing n earlier with
  | nil => exact .ok (absurd rfl) _
  | cons f fs ih =>
    rw [List.append_cons] at h ⊢
    have hterm : Decided (∀ g ∈ earlier ++ [f], Sought after g.field)
        (seekTests s after f n earlier) :=
      seekTests_decided f earlier n fun g hg => h g (List.mem_append_left fs hg)
    refine (hterm.bind fun r => (ih _ _ h).next fun _ => ⟨_, rfl⟩).congr ⟨?_, fun hall => ?_⟩
    · rintro ⟨hfirst, hrest⟩ -
      -- The last term asks for all fields; no further one is written.
      cases fs with
      | nil =>
        rw [List.append_nil]
        exact hfirst
      | cons g gs => exact hrest (List.cons_ne_nil g gs)
    · have hall := hall (List.cons_ne_nil f fs)
      exact ⟨fun g hg => hall g (List.mem_append_left fs hg), fun _ => hall⟩

theorem seek_decided {sort : List SortField} (page : Page) (n : Nat) (hasWhere : Bool)
    (h : ∀ f ∈ sort, ∃ id, s.scalarType .sort f.field = .ok id) :
    Decided (page.Admissible sort) (seek s n sort hasWhere page) := by
  cases page with
  | offset offset limit => exact .ok trivial _
  | seek limit after =>
    unfold seek
    dsimp only
    cases after with
    | nil => exact .ok (.inl rfl) _
    | cons e es =>
      rw [if_neg (show ¬(e :: es).isEmpty = true from Bool.false_ne_true)]
      cases sort with
      | nil =>
        refine .error ?_ _
        rintro (hnil | ⟨hsort, -⟩)
        · cases hnil
        · exact hsort rfl
      | cons f fs =>
        rw [if_neg (show ¬(f :: fs).isEmpty = true from Bool.false_ne_true)]
        refine ((seekTerms_decided (f :: fs) [] n h).map _).congr ⟨fun hall => ?_, ?_⟩
        · exact .inr ⟨List.cons_ne_nil f fs, hall (List.cons_ne_nil f fs)⟩
        · rintro (hnil | ⟨-, hall⟩) -
          · cases hnil
          · exact hall

/-! ## Reads -/

/-- A validated query compiles if its operands and its page can be tested, and else is refused by
planning: no path that was let through fails later on. -/
theorem select_admission {q : Query} {filter : Option Filter} (hsource : s.entity.source?.isSome)
    (hview : s.view.native = none)
    (hvalid : validate s.model s.entity q filter = .ok ()) :
    ((∃ st, select .postgres s filter q.sort q.page q.params = .ok st) ↔
      (∀ f, filter = some f → ∀ c ∈ f.conditions, c.Admissible) ∧ q.page.Admissible q.sort) ∧
    ∀ e, select .postgres s filter q.sort q.page q.params = .error e →
      ∃ cause, e = .planning cause := by
  obtain ⟨hconditions, hsort⟩ := scalar_of_validate hvalid
  obtain ⟨table, htable⟩ := Option.isSome_iff_exists.mp hsource
  have hbase : ∃ b, base s q.params = .ok b := by
    unfold base derivedSelect Scope.source
    rw [hview, htable]
    exact ⟨_, rfl⟩
  have hfiltered : Decided (∀ f, filter = some f → ∀ c ∈ f.conditions, c.Admissible)
      (filtered .postgres s filter q.params) := by
    obtain ⟨b, hb⟩ := hbase
    unfold filtered
    rw [hb]
    exact (predicate?_decided filter true hconditions).next fun _ => ⟨_, rfl⟩
  have hselect : Decided ((∀ f, filter = some f → ∀ c ∈ f.conditions, c.Admissible) ∧
      q.page.Admissible q.sort) (select .postgres s filter q.sort q.page q.params) :=
    hfiltered.bind fun r => (seek_decided q.page _ _ hsort).next fun _ => ⟨_, rfl⟩
  exact ⟨hselect.iff, fun e => hselect.planning⟩

end

/-- Names behind one of an age, where either the age or the name is given. -/
def laterNames : Query :=
  { Query.empty with
    filter := some (.group .or [.cond (.between "age" (.int 18) (.int 65)),
      .cond (.of "name" .inList (.list []))])
    sort := [⟨"age", .desc⟩, ⟨"name", .asc⟩]
    page := .seek 10 [("age", .int 30), ("name", .str "Kim")] }

theorem laterNames_admitted : ∃ r, laterNames.normalize = .ok r ∧
    validate people.model people.entity laterNames r = .ok () ∧
    ∃ st, select .postgres people r laterNames.sort laterNames.page [] = .ok st := by
  refine ⟨_, rfl, rfl, (select_admission rfl rfl rfl).1.mpr ⟨?_, .inr ⟨nofun, ?_⟩⟩⟩
  · rintro _ ⟨⟩ c hc
    rcases List.mem_pair.mp hc with rfl | rfl
    · exact ⟨rfl, rfl⟩
    · exact nofun
  · intro f hf
    rcases List.mem_pair.mp hf with rfl | rfl
    · exact ⟨_, rfl, rfl⟩
    · exact ⟨_, rfl, rfl⟩

end Sql
end Polystore
