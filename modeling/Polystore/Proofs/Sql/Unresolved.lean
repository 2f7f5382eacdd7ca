import Polystore.Proofs.Query.Parameters
import Polystore.Proofs.Query.WireForm
import Polystore.Proofs.Sql.Clauses

/-! # Parameters in statements

A replacement is not looked into again, so a normalized filter has just the parameters that stood
inside the values of its parameters. All that are left in operands are bound as they are. -/

namespace Polystore
set_option autoImplicit false

/-! ## Parameters by name -/

namespace Value

def paramName? : Value → Option String
  | param name => some name
  | _ => none

/-- The names of the parameters inside a value, from left to right. -/
def params (v : Value) : List String := v.leaves.filterMap paramName?

theorem paramName?_eq_some {v : Value} {name : String} :
    v.paramName? = some name ↔ v = param name := by
  cases v <;> simp [paramName?]

theorem mem_params {v : Value} {name : String} : name ∈ v.params ↔ param name ∈ v.leaves := by
  simp only [params, List.mem_filterMap, paramName?_eq_some, exists_eq_right]

theorem params_list (vs : List Value) : (list vs).params = vs.flatMap params := by
  show (itemLeaves vs).filterMap paramName? = _
  induction vs with
  | nil => rfl
  | cons v vs ih =>
    rw [itemLeaves, List.filterMap_append, ih, List.flatMap_cons]
    rfl

theorem params_eq_nil_of_isNull {v : Value} (h : v.isNull = true) : v.params = [] := by
  cases v with
  | null => rfl
  | _ => cases h

mutual
theorem json_notMem_leaves (v : Value) (h : v.Portable) (j : Json) : json j ∉ v.leaves := by
  match v with
  | list vs => exact json_notMem_itemLeaves vs h j
  | map es => exact json_notMem_entryLeaves es h.2.2 j
  | json j => exact h.elim
  | null | bool _ | int _ | long _ | double _ | str _ | uuid _ | instant _ | param _ =>
    simp [leaves]
theorem json_notMem_itemLeaves (vs : List Value) (h : PortableItems vs) (j : Json) :
    json j ∉ itemLeaves vs := by
  match vs with
  | [] => exact List.not_mem_nil
  | v :: vs =>
    rw [itemLeaves, List.mem_append, not_or]
    exact ⟨json_notMem_leaves v h.1 j, json_notMem_itemLeaves vs h.2 j⟩
theorem json_notMem_entryLeaves (es : List (String × Value)) (h : PortableEntries es) (j : Json) :
    json j ∉ entryLeaves es := by
  match es with
  | [] => exact List.not_mem_nil
  | (k, v) :: es =>
    rw [entryLeaves, List.mem_append, not_or]
    exact ⟨json_notMem_leaves v h.1 j, json_notMem_entryLeaves es h.2 j⟩
end

end Value

/-! ## Parameters of binds -/

namespace JsonPath

theorem params_wrap (segs : List String) (v : Value) : (wrap segs v).params = v.params := by
  induction segs with
  | nil => rfl
  | cons seg segs ih =>
    rw [← ih]
    exact congrArg (List.filterMap Value.paramName?) (List.append_nil (wrap segs v).leaves)

theorem params_fragment (segs : List String) (v : Value) : (fragment segs v).params = v.params := by
  unfold fragment
  split
  · cases v with
    | list | map => rfl
    | _ => exact params_wrap ["value"] _
  · exact params_wrap segs v

end JsonPath

/-- The parameters inside the part of the operands that its operator takes. -/
def Condition.boundParams (c : Condition) : List String :=
  match c.operator with
  | .range => c.lower.params ++ c.upper.params
  | .jsonPathExists => []
  | .jsonValueEq => ((JsonPath.operand? c.value).map fun o => o.2.params).getD []
  | op => if op.isListShaped then c.value.toList.flatMap Value.params else c.value.params

def Filter.boundParams (f : Filter) : List String := f.conditions.flatMap Condition.boundParams

namespace Sql

def paramsOf (bs : List Bind) : List String := bs.flatMap fun b => b.value.params

theorem paramsOf_append (bs cs : List Bind) : paramsOf (bs ++ cs) = paramsOf bs ++ paramsOf cs :=
  List.flatMap_append

theorem params_coerceScalar (typeId : String) (v : Value) :
    (coerceScalar typeId v).params = v.params := by
  cases v with
  | str s =>
    unfold coerceScalar
    dsimp only
    split
    · split <;> rfl
    · rfl
  | _ => rfl

theorem paramsOf_scalarBinds (typeId : String) (vs : List Value) :
    paramsOf (vs.map (scalarBind typeId)) = vs.flatMap Value.params := by
  rw [paramsOf, List.flatMap_map]
  exact List.flatMap_congr fun v _ => params_coerceScalar typeId v

theorem paramsOf_listBind (typeId : String) (vs : List Value) :
    paramsOf [listBind typeId vs] = vs.flatMap Value.params := by
  rw [paramsOf, List.flatMap_singleton, listBind]
  split
  · rw [Value.params_list, List.flatMap_map]
    exact List.flatMap_congr fun v _ => params_coerceScalar _ v
  · exact Value.params_list vs

/-- The binds of what is written, if anything is, carry these parameters. -/
def Carries {α : Type} (names : List String) (r : Except Error (Bound α)) : Prop :=
  ∀ x, r = .ok x → paramsOf x.2 = names

section
variable {α β : Type} {names : List String} {n : Nat} {expr typeId : String} {v : Value}
  {vs : List Value}

theorem Carries.ok {x : Bound α} (h : paramsOf x.2 = names) : Carries names (.ok x) := by
  rintro _ ⟨⟩
  exact h

theorem Carries.error (e : Error) : Carries (α := α) names (.error e) := nofun

theorem Carries.map {r : Except Error (Bound α)} (h : Carries names r) {f : Bound α → Bound β}
    (hf : ∀ x, (f x).2 = x.2) : Carries names (r.map f) := by
  intro y hy
  obtain ⟨x, hx, rfl⟩ := map_eq_ok.mp hy
  rw [hf]
  exact h x hx

theorem paramsOf_comparison (op : Keyword) :
    paramsOf (comparison n expr op typeId v).2 = v.params :=
  (List.append_nil _).trans (params_coerceScalar typeId v)

theorem equality_carries (op nullTest : Keyword) :
    Carries v.params (.ok (equality n expr op nullTest typeId v)) := by
  refine .ok ?_
  unfold equality
  split
  · rename_i hnull
    exact (Value.params_eq_nil_of_isNull hnull).symm
  · exact paramsOf_comparison op

theorem ordering_carries (op : Operator) (k : Keyword) :
    Carries v.params (ordering n expr op k typeId v) := by
  unfold ordering
  split
  · exact .error _
  · exact .ok (paramsOf_comparison k)

theorem membership_carries (op : Operator) (negated : Bool) :
    Carries (vs.flatMap Value.params) (membership n expr op typeId vs negated) := by
  unfold membership
  dsimp only
  split
  · rename_i hempty
    rw [List.isEmpty_iff.mp hempty]
    exact .ok rfl
  · split
    · exact .error _
    · exact .ok (paramsOf_scalarBinds typeId vs)

theorem between_carries {lower upper : Value} :
    Carries (lower.params ++ upper.params) (between n expr typeId lower upper) := by
  unfold between
  split
  · exact .error _
  · refine .ok ((paramsOf_scalarBinds typeId [lower, upper]).trans ?_)
    rw [List.flatMap_cons, List.flatMap_singleton]

theorem arrayTest_carries (empty negated : Bool) (render : Token → Except PlanningError Tokens) :
    Carries (vs.flatMap Value.params) (arrayTest n typeId vs empty negated render) := by
  unfold arrayTest
  split
  · rename_i hempty
    rw [List.isEmpty_iff.mp hempty]
    exact .ok rfl
  · split
    · exact .ok (paramsOf_listBind typeId vs)
    · exact .error _

theorem jsonValueTest_carries (d : Dialect) :
    Carries (((JsonPath.operand? v).map fun o => o.2.params).getD [])
      (jsonValueTest n d expr v) := by
  unfold jsonValueTest
  split
  · exact .error _
  · rename_i path w hoperand
    rw [hoperand, Option.map_some, Option.getD_some]
    intro x hx
    obtain ⟨ts, -, rfl⟩ := map_eq_ok.mp hx
    rw [paramsOf, List.flatMap_singleton, JsonPath.params_fragment]

end

section
variable (d : Dialect) (s : Scope)

theorem condition_carries (n : Nat) (c : Condition) (negate : Bool) :
    Carries c.boundParams (condition d s n c negate) := by
  have plain : ∀ {names : List String} {r : Except Error (Bound Tokens)}, Carries names r →
      Carries names (r.map (asTest (c.negated ^^ negate))) := fun h => h.map fun _ => rfl
  unfold condition Condition.boundParams
  cases s.scalarType .filter c.property with
  | error e => exact .error e
  | ok typeId =>
  simp only [bind, Except.bind]
  cases c.operator <;> dsimp only
  case eq | ne => exact plain (equality_carries _ _)
  case gt | ge | lt | le | like => exact plain (ordering_carries _ _)
  case inList | notIn => exact membership_carries _ _
  case range => exact plain between_carries
  case arrayContains | arrayNotContains | arrayOverlaps | arrayNotOverlaps =>
    exact arrayTest_carries _ _ _
  case jsonPathExists =>
    refine plain fun x hx => ?_
    obtain ⟨ts, -, rfl⟩ := map_eq_ok.mp hx
    rfl
  case jsonValueEq => exact plain (jsonValueTest_carries d)

mutual
/-- The binds of a predicate carry the parameters of its operands, in their order. -/
theorem predicate_carries (n : Nat) (negate wrap : Bool) (f : Filter) :
    Carries f.boundParams (predicate d s n negate wrap f) := by
  match f with
  | .cond c =>
    have hparams : (Filter.cond c).boundParams = c.boundParams := List.append_nil _
    rw [predicate, hparams]
    exact (condition_carries d s n c negate).map fun _ => rfl
  | .not f =>
    rw [predicate]
    exact predicate_carries n (!negate) wrap f
  | .group clause fs =>
    rw [predicate]
    exact (predicates_carries n negate _ fs).map fun _ => rfl
theorem predicates_carries (n : Nat) (negate wrap : Bool) (fs : List Filter) :
    Carries ((Filter.conditionsAll fs).flatMap Condition.boundParams)
      (predicates d s n negate wrap fs) := by
  match fs with
  | [] => exact .ok rfl
  | f :: fs =>
    rw [predicates, Filter.conditionsAll, List.flatMap_append]
    intro x hx
    obtain ⟨⟨p, bs⟩, hp, hx⟩ := bind_eq_ok.mp hx
    obtain ⟨⟨ps, cs⟩, hps, hx⟩ := bind_eq_ok.mp hx
    cases hx
    rw [paramsOf_append, predicates_carries _ negate wrap fs _ hps]
    exact congrArg (· ++ _) (predicate_carries n negate wrap f _ hp)
end

/-! ## Parameters of statements -/

theorem binds_restrict (b : Base) (r : Bound (Option Pred)) :
    (b.restrict r).binds = b.binds ++ r.2 := by
  obtain ⟨p, bs⟩ := r
  cases p <;> rfl

variable {d s} {st : Statement} {f : Filter} {params : Entries Value}

theorem select_carries {sort : List SortField} {page : Page}
    (h : select d s (some f) sort page params = .ok st) :
    ∃ b n hasWhere later, base s params = .ok b ∧ seek s n sort hasWhere page = .ok later ∧
      paramsOf st.binds = paramsOf b.binds ++ (f.boundParams ++ paramsOf later.2) := by
  obtain ⟨b, r, q, hb, hr, hq, rfl⟩ := select_eq_ok.mp h
  refine ⟨b, _, _, q, hb, hq, ?_⟩
  rw [(restrict_restrict b r q).2, paramsOf_append, paramsOf_append,
    predicate_carries d s 0 false true f r hr]

theorem count_carries (h : count d s (some f) params = .ok st) :
    ∃ b, base s params = .ok b ∧ paramsOf st.binds = paramsOf b.binds ++ f.boundParams := by
  obtain ⟨⟨b', n⟩, hfiltered, hst⟩ := bind_eq_ok.mp h
  obtain ⟨b, hb, hfiltered⟩ := bind_eq_ok.mp hfiltered
  obtain ⟨r, hr, hbn⟩ := bind_eq_ok.mp hfiltered
  cases hbn
  cases hst
  refine ⟨b, hb, ?_⟩
  show paramsOf (b.restrict r).binds = _
  rw [binds_restrict, paramsOf_append, predicate_carries d s 0 false true f r hr]

theorem update_carries {table : String} {sets : List ColumnBind}
    (h : update d s ⟨table, sets, some f⟩ = .ok st) :
    paramsOf st.binds = paramsOf (sets.map (·.bind)) ++ f.boundParams := by
  obtain ⟨-, r, hr, rfl⟩ := update_cases h
  show paramsOf (Base.restrict _ r).binds = _
  rw [binds_restrict, paramsOf_append, predicate_carries d s _ false false f r hr]
  rfl

theorem delete_carries {table : String} (h : delete d s ⟨table, some f⟩ = .ok st) :
    paramsOf st.binds = f.boundParams := by
  obtain ⟨r, hr, rfl⟩ := delete_cases h
  show paramsOf (Base.restrict _ r).binds = _
  rw [binds_restrict, paramsOf_append, predicate_carries d s _ false false f r hr]
  rfl

end
end Sql

/-! ## Filters that were read -/

namespace Filter

mutual
theorem wellFormed_conditions (f : Filter) (h : f.WellFormed) : ∀ c ∈ f.conditions, c.WellFormed := by
  match f with
  | cond c => exact List.forall_mem_singleton.mpr h
  | not f => exact wellFormed_conditions f h
  | group _ fs => exact wellFormed_conditionsAll fs h
theorem wellFormed_conditionsAll (fs : List Filter) (h : AllWellFormed fs) :
    ∀ c ∈ conditionsAll fs, c.WellFormed := by
  match fs with
  | [] => exact nofun
  | f :: fs =>
    exact List.forall_mem_append.mpr
      ⟨wellFormed_conditions f h.1, wellFormed_conditionsAll fs h.2⟩
end

theorem json_notMem_leaves {f : Filter} (h : f.WellFormed) (j : Json) : .json j ∉ f.leaves := by
  intro hj
  obtain ⟨c, hc, hj⟩ := List.mem_flatMap.mp hj
  obtain ⟨-, hvalue, hlower, hupper⟩ := wellFormed_conditions f h c hc
  rw [Condition.leaves, List.mem_append, List.mem_append] at hj
  rcases hj with (hj | hj) | hj
  · exact Value.json_notMem_leaves _ hvalue j hj
  · exact Value.json_notMem_leaves _ hlower j hj
  · exact Value.json_notMem_leaves _ hupper j hj

end Filter

/-- Replacing parameters brings no opaque JSON into a query that was read. -/
theorem json_notMem_normalized {q : Query} (hq : q.WellFormed) {f g : Filter}
    (hf : q.filter = some f) (hg : replaceLeaves q.params f.leaves = .ok g.leaves) (j : Json) :
    .json j ∉ g.leaves := by
  rw [mem_replaceLeaves hg]
  rintro (⟨hj, -⟩ | ⟨name, v, -, hv, hj⟩)
  · exact Filter.json_notMem_leaves (hq.filter f hf) j hj
  · exact Value.json_notMem_entryLeaves _ hq.params.2 j
      (Value.mem_entryLeaves.mpr ⟨(name, v), Entries.mem_of_lookup hv, hj⟩)

/-- Opaque JSON aside, whose items are read as values first, a list of operands is the value. -/
theorem Value.params_toList {v : Value} (h : ∀ j, json j ∉ v.leaves) :
    v.toList.flatMap params = v.params := by
  cases v with
  | null => rfl
  | list vs => exact (params_list vs).symm
  | json j => exact absurd (List.mem_singleton_self _) (h j)
  | _ => exact List.append_nil _

theorem JsonPath.params_operand {v w : Value} {path : String} (h : operand? v = some (path, w)) :
    ∀ name ∈ w.params, name ∈ v.params := by
  intro name hname
  cases v with
  | map m =>
    unfold operand? at h
    dsimp only at h
    split at h
    · cases h
      cases hw : m.lookup "value" with
      | none =>
        rw [hw] at hname
        cases hname
      | some w =>
        rw [hw, Option.getD_some, Value.mem_params] at hname
        exact Value.mem_params.mpr (Value.mem_entryLeaves.mpr ⟨_, Entries.mem_of_lookup hw, hname⟩)
    · cases h
  | _ => cases h

theorem Condition.mem_boundParams {c : Condition} (hjson : ∀ j, .json j ∉ c.value.leaves)
    {name : String} (h : name ∈ c.boundParams) : .param name ∈ c.leaves := by
  have hvalue : name ∈ c.value.params → .param name ∈ c.leaves := fun h =>
    List.mem_append_left _ (List.mem_append_left _ (Value.mem_params.mp h))
  unfold Condition.boundParams at h
  cases hop : c.operator <;> simp only [hop] at h
  case eq | ne | gt | ge | lt | le | like => exact hvalue h
  case inList | notIn | arrayContains | arrayNotContains | arrayOverlaps | arrayNotOverlaps =>
    refine hvalue ?_
    rw [← Value.params_toList hjson]
    exact h
  case range =>
    rcases List.mem_append.mp h with h | h
    · exact List.mem_append_left _ (List.mem_append_right _ (Value.mem_params.mp h))
    · exact List.mem_append_right _ (Value.mem_params.mp h)
  case jsonPathExists => cases h
  case jsonValueEq =>
    cases ho : JsonPath.operand? c.value with
    | none =>
      rw [ho] at h
      cases h
    | some o =>
      rw [ho] at h
      exact hvalue (JsonPath.params_operand ho name h)

theorem Filter.mem_boundParams {f : Filter} (hjson : ∀ j, .json j ∉ f.leaves) {name : String}
    (h : name ∈ f.boundParams) : .param name ∈ f.leaves := by
  obtain ⟨c, hc, h⟩ := List.mem_flatMap.mp h
  refine List.mem_flatMap.mpr ⟨c, hc, Condition.mem_boundParams (fun j hj => hjson j ?_) h⟩
  exact List.mem_flatMap.mpr ⟨c, hc, List.mem_append_left _ (List.mem_append_left _ hj)⟩

/-- The parameters left in a normalized filter are those inside the values of the parameters that
it used, so that there are none exactly if all these values are free of them. Each statement has
those in operands among its binds, between what its base and its page bind; in a query that was
read these are parameters that are left. -/
theorem params_left {q : Query} {f g : Filter} (hf : q.filter = some f)
    (hg : q.normalize = .ok (some g)) :
    (∀ name, .param name ∈ g.leaves ↔ ∃ m v, .param m ∈ f.leaves ∧ q.params.lookup m = some v ∧
      .param name ∈ v.leaves) ∧
    (g.ParamFree ↔ ∀ m v, .param m ∈ f.leaves → q.params.lookup m = some v → v.ParamFree) ∧
    (q.WellFormed → ∀ name ∈ g.boundParams, .param name ∈ g.leaves) ∧
    ∀ (d : Sql.Dialect) (s : Scope) (st : Sql.Statement),
      (∀ sort page params, Sql.select d s (some g) sort page params = .ok st →
        ∃ b n hasWhere later, Sql.base s params = .ok b ∧
          Sql.seek s n sort hasWhere page = .ok later ∧ Sql.paramsOf st.binds =
            Sql.paramsOf b.binds ++ (g.boundParams ++ Sql.paramsOf later.2)) ∧
      (∀ params, Sql.count d s (some g) params = .ok st →
        ∃ b, Sql.base s params = .ok b ∧
          Sql.paramsOf st.binds = Sql.paramsOf b.binds ++ g.boundParams) ∧
      (∀ table sets, Sql.update d s ⟨table, sets, some g⟩ = .ok st →
        Sql.paramsOf st.binds = Sql.paramsOf (sets.map (·.bind)) ++ g.boundParams) ∧
      (∀ table, Sql.delete d s ⟨table, some g⟩ = .ok st →
        Sql.paramsOf st.binds = g.boundParams) := by
  have hnormalize : f.normalize q.params = .ok (some g) := by
    rw [← hg, Query.normalize, hf]
  have hleaves := Filter.leaves_of_normalize hnormalize
  -- A leaf that was kept is no parameter, so each one left came with a value.
  have hleft : ∀ name, .param name ∈ g.leaves ↔ ∃ m v, .param m ∈ f.leaves ∧
      q.params.lookup m = some v ∧ .param name ∈ v.leaves := by
    intro name
    rw [mem_replaceLeaves hleaves]
    exact or_iff_right fun h => h.2 name rfl
  refine ⟨hleft, ⟨fun hfree m v hm hv name hname => ?_, fun hfree name hname => ?_⟩, ?_, ?_⟩
  · exact hfree name ((hleft name).mpr ⟨m, v, hm, hv, hname⟩)
  · obtain ⟨m, v, hm, hv, hname⟩ := (hleft name).mp hname
    exact hfree m v hm hv name hname
  · exact fun hq name => Filter.mem_boundParams (json_notMem_normalized hq hf hleaves)
  · exact fun d s st => ⟨fun _ _ _ => Sql.select_carries, fun _ => Sql.count_carries,
      fun _ _ => Sql.update_carries, fun _ => Sql.delete_carries⟩

/-! ## A parameter in the place of another -/

def byOtherName : Query :=
  { Query.empty with
    filter := some (.cond (.of "name" .eq (.param "who"))), params := [("who", .param "other")] }

theorem byOtherName_left : byOtherName.WellFormed ∧
    ∃ g st, byOtherName.normalize = .ok (some g) ∧ .param "other" ∈ g.leaves ∧
      Sql.select .postgres Sql.people (some g) [] Page.first byOtherName.params = .ok st ∧
      st.text = "SELECT age AS \"age\", name AS \"name\" FROM \"people\" WHERE name = :b1 " ++
        "LIMIT 50 OFFSET 0" ∧
      Sql.paramsOf st.binds = ["other"] := by
  have hq : byOtherName.WellFormed := by
    refine ⟨?_, ⟨by decide, by decide, by decide⟩, List.pairwise_singleton _ _, trivial, trivial⟩
    rintro _ ⟨⟩
    exact ⟨⟨rfl, rfl⟩, trivial, trivial, trivial⟩
  obtain ⟨hleft, -⟩ := params_left (q := byOtherName) rfl rfl
  refine ⟨hq, _, _, rfl, (hleft "other").mpr ⟨"who", _, ?_, rfl, ?_⟩, rfl, by decide +kernel, ?_⟩
  · exact List.mem_cons_self
  · exact List.mem_cons_self
  · rfl

end Polystore
