import Polystore.Proofs.Outcome
import Polystore.Query.Normalize

/-! # Parameters of filters

What becomes of the parameters of a filter when it is normalized. Normalizing replaces the
parameters of each condition and then clears the groups, which keeps all conditions; so what is
left in the result is seen on the values inside the conditions. A parameter gives way to the values
inside its own value, parameters among them, and one without a value is an error. -/

namespace Polystore
set_option autoImplicit false

/-! ## Leaves -/

namespace Value

mutual
/-- The values inside a value that are no lists or maps, from left to right. -/
def leaves : Value → List Value
  | list vs => itemLeaves vs
  | map es => entryLeaves es
  | v => [v]
def itemLeaves : List Value → List Value
  | [] => []
  | v :: vs => leaves v ++ itemLeaves vs
def entryLeaves : List (String × Value) → List Value
  | [] => []
  | (_, v) :: es => leaves v ++ entryLeaves es
end

theorem mem_itemLeaves {w : Value} {vs : List Value} :
    w ∈ itemLeaves vs ↔ ∃ v ∈ vs, w ∈ v.leaves := by
  induction vs with
  | nil => simp [itemLeaves]
  | cons v vs ih => simp [itemLeaves, ih]

theorem mem_entryLeaves {w : Value} {es : List (String × Value)} :
    w ∈ entryLeaves es ↔ ∃ e ∈ es, w ∈ e.2.leaves := by
  induction es with
  | nil => simp [entryLeaves]
  | cons e es ih => simp [entryLeaves, ih]

/-- No parameter is left in the value, at any depth. -/
def ParamFree (v : Value) : Prop := ∀ name, param name ∉ v.leaves

end Value

def Condition.leaves (c : Condition) : List Value :=
  c.value.leaves ++ c.lower.leaves ++ c.upper.leaves

namespace Filter

/-- The leaves of all operands of a filter. -/
def leaves (f : Filter) : List Value := f.conditions.flatMap Condition.leaves

/-- No operand of the filter holds a parameter. -/
def ParamFree (f : Filter) : Prop := ∀ name, .param name ∉ f.leaves

end Filter

/-! ## Replacing leaves -/

/-- What stands for a leaf: a parameter gives way to the leaves of its value. -/
def replacement (params : Entries Value) : Value → Except PlanningError (List Value)
  | .param name => (param params name).map Value.leaves
  | v => .ok [v]

def replaceLeaves (params : Entries Value) : List Value → Except PlanningError (List Value)
  | [] => .ok []
  | v :: vs => do
    let ws ← replacement params v
    let us ← replaceLeaves params vs
    .ok (ws ++ us)

section
variable {ε α β γ δ : Type}

/-- Two computations, whose lists are put one behind the other. -/
def concat (x y : Except ε (List δ)) : Except ε (List δ) := do
  let a ← x
  let b ← y
  .ok (a ++ b)

theorem concat_nil (x : Except ε (List δ)) : concat x (.ok []) = x := by
  cases x with
  | error e => rfl
  | ok a => exact congrArg Except.ok (List.append_nil a)

theorem concat_assoc (x y z : Except ε (List δ)) :
    concat (concat x y) z = concat x (concat y z) := by
  cases x with
  | error e => rfl
  | ok a =>
    cases y with
    | error e => rfl
    | ok b =>
      cases z with
      | error e => rfl
      | ok c => exact congrArg Except.ok (List.append_assoc a b c)

/-- What is seen of two results in a row is what is seen of each. -/
theorem map_concat {x : Except ε α} {y : Except ε β} {f : α → List δ} {g : β → List δ}
    {pair : α → β → γ} {seen : γ → List δ} (h : ∀ a b, seen (pair a b) = f a ++ g b) :
    (x >>= fun a => y >>= fun b => .ok (pair a b)).map seen = concat (x.map f) (y.map g) := by
  cases x with
  | error e => rfl
  | ok a =>
    cases y with
    | error e => rfl
    | ok b => exact congrArg Except.ok (h a b)

end

section
variable {params : Entries Value} {vs ws : List Value} {e : PlanningError}

theorem replaceLeaves_cons (params : Entries Value) (v : Value) (vs : List Value) :
    replaceLeaves params (v :: vs) = concat (replacement params v) (replaceLeaves params vs) := rfl

theorem replaceLeaves_append (params : Entries Value) (vs ws : List Value) :
    replaceLeaves params (vs ++ ws) =
      concat (replaceLeaves params vs) (replaceLeaves params ws) := by
  induction vs with
  | nil =>
    rw [List.nil_append]
    cases replaceLeaves params ws <;> rfl
  | cons v vs ih => rw [List.cons_append, replaceLeaves_cons, replaceLeaves_cons, ih, concat_assoc]

theorem replaceLeaves_singleton (params : Entries Value) (v : Value) :
    replaceLeaves params [v] = replacement params v := concat_nil _

theorem replacement_param {name : String} {v : Value} (h : params.lookup name = some v) :
    replacement params (.param name) = .ok v.leaves := by
  rw [replacement, param, h]
  rfl

theorem replacement_missing {name : String} (h : params.lookup name = none) :
    replacement params (.param name) = .error (.missingParam name) := by
  rw [replacement, param, h]
  rfl

theorem replacement_of_ne {v : Value} (h : ∀ name, v ≠ .param name) :
    replacement params v = .ok [v] := by
  cases v with
  | param name => exact absurd rfl (h name)
  | _ => rfl

/-- The first parameter without a value ends the replacement; there is none if it succeeds. -/
theorem replaceLeaves_cases (params : Entries Value) (vs : List Value) :
    ((∀ name, .param name ∈ vs → (params.lookup name).isSome) ∧
      ∃ ws, replaceLeaves params vs = .ok ws) ∨
    ∃ before name after, vs = before ++ .param name :: after ∧
      (∀ n, .param n ∈ before → (params.lookup n).isSome) ∧ params.lookup name = none ∧
      replaceLeaves params vs = .error (.missingParam name) := by
  induction vs with
  | nil => exact .inl ⟨nofun, [], rfl⟩
  | cons v vs ih =>
    by_cases hmissing : ∃ name, v = .param name ∧ params.lookup name = none
    · obtain ⟨name, rfl, hname⟩ := hmissing
      refine .inr ⟨[], name, vs, rfl, nofun, hname, ?_⟩
      rw [replaceLeaves_cons, replacement_missing hname]
      rfl
    have hfound : ∀ name, .param name = v → (params.lookup name).isSome := by
      rintro name rfl
      exact Option.isSome_iff_ne_none.mpr fun hname => hmissing ⟨name, rfl, hname⟩
    have hfirst : ∃ us, replacement params v = .ok us := by
      by_cases hparam : ∃ name, .param name = v
      · obtain ⟨name, rfl⟩ := hparam
        obtain ⟨w, hw⟩ := Option.isSome_iff_exists.mp (hfound name rfl)
        exact ⟨_, replacement_param hw⟩
      · exact ⟨_, replacement_of_ne fun name h => hparam ⟨name, h.symm⟩⟩
    obtain ⟨us, hus⟩ := hfirst
    rw [replaceLeaves_cons, hus]
    rcases ih with ⟨hall, ws, hws⟩ | ⟨before, name, after, rfl, hbefore, hname, herror⟩
    · refine .inl ⟨fun name hmem => ?_, us ++ ws, ?_⟩
      · exact (List.mem_cons.mp hmem).elim (hfound name) (hall name)
      · rw [hws]
        rfl
    · refine .inr ⟨v :: before, name, after, rfl, fun n hmem => ?_, hname, ?_⟩
      · exact (List.mem_cons.mp hmem).elim (hfound n) (hbefore n)
      · rw [herror]
        rfl

theorem replaceLeaves_ok_iff : (∃ ws, replaceLeaves params vs = .ok ws) ↔
    ∀ name, .param name ∈ vs → (params.lookup name).isSome := by
  rcases replaceLeaves_cases params vs with ⟨hall, hok⟩ | ⟨before, name, after, rfl, -, hname, herror⟩
  · exact ⟨fun _ => hall, fun _ => hok⟩
  · constructor
    · rintro ⟨ws, hws⟩
      rw [herror] at hws
      cases hws
    · intro hall
      have hfound := hall name (List.mem_append_right before List.mem_cons_self)
      rw [hname] at hfound
      cases hfound

theorem mem_replacement {v w : Value} (h : replacement params v = .ok ws) :
    w ∈ ws ↔ (w = v ∧ ∀ name, w ≠ .param name) ∨
      ∃ name x, .param name = v ∧ params.lookup name = some x ∧ w ∈ x.leaves := by
  by_cases hparam : ∃ name, .param name = v
  · obtain ⟨name, rfl⟩ := hparam
    cases hlookup : params.lookup name with
    | none =>
      rw [replacement_missing hlookup] at h
      cases h
    | some x =>
      rw [replacement_param hlookup] at h
      cases h
      constructor
      · exact fun hw => .inr ⟨name, x, rfl, hlookup, hw⟩
      · rintro (⟨rfl, hne⟩ | ⟨name, y, ⟨⟩, hy, hw⟩)
        · exact absurd rfl (hne name)
        · rw [hlookup] at hy
          cases hy
          exact hw
  · have hne : ∀ name, v ≠ .param name := fun name h => hparam ⟨name, h.symm⟩
    rw [replacement_of_ne hne] at h
    cases h
    rw [List.mem_singleton]
    constructor
    · rintro rfl
      exact .inl ⟨rfl, hne⟩
    · rintro (⟨rfl, -⟩ | ⟨name, x, hv, -⟩)
      · rfl
      · exact absurd hv.symm (hne name)

/-- What is left: the leaves that are no parameters, and those of the values of the parameters. -/
theorem mem_replaceLeaves (h : replaceLeaves params vs = .ok ws) {w : Value} :
    w ∈ ws ↔ (w ∈ vs ∧ ∀ name, w ≠ .param name) ∨
      ∃ name x, .param name ∈ vs ∧ params.lookup name = some x ∧ w ∈ x.leaves := by
  induction vs generalizing ws with
  | nil =>
    cases h
    simp
  | cons v vs ih =>
    obtain ⟨us, hus, h⟩ := bind_eq_ok.mp h
    obtain ⟨rest, hrest, h⟩ := bind_eq_ok.mp h
    cases h
    rw [List.mem_append, mem_replacement hus, ih hrest]
    simp only [List.mem_cons, or_and_right, exists_or]
    exact or_or_or_comm

end

/-! ## Values and conditions -/

namespace Value

mutual
/-- On its leaves, replacing the parameters of a value is replacing leaves. -/
theorem leaves_resolve (params : Entries Value) (v : Value) :
    (v.resolve params).map leaves = replaceLeaves params v.leaves := by
  match v with
  | param name => exact (replaceLeaves_singleton params (param name)).symm
  | list vs =>
    rw [resolve, leaves, ← itemLeaves_resolveItems params vs]
    cases resolveItems params vs <;> rfl
  | map es =>
    rw [resolve, leaves, ← entryLeaves_resolveEntries params es]
    cases resolveEntries params es <;> rfl
  | null | bool _ | int _ | long _ | double _ | str _ | uuid _ | instant _ | json _ => rfl
theorem itemLeaves_resolveItems (params : Entries Value) (vs : List Value) :
    (resolveItems params vs).map itemLeaves = replaceLeaves params (itemLeaves vs) := by
  match vs with
  | [] => rfl
  | v :: vs =>
    rw [itemLeaves, replaceLeaves_append, ← leaves_resolve params v,
      ← itemLeaves_resolveItems params vs]
    exact map_concat fun _ _ => rfl
theorem entryLeaves_resolveEntries (params : Entries Value) (es : List (String × Value)) :
    (resolveEntries params es).map entryLeaves = replaceLeaves params (entryLeaves es) := by
  match es with
  | [] => rfl
  | (k, v) :: es =>
    rw [entryLeaves, replaceLeaves_append, ← leaves_resolve params v,
      ← entryLeaves_resolveEntries params es]
    exact map_concat fun _ _ => rfl
end

mutual
theorem resolve_of_paramFree (params : Entries Value) (v : Value) (h : v.ParamFree) :
    v.resolve params = .ok v := by
  match v with
  | param name => exact absurd (List.mem_singleton_self _) (h name)
  | list vs =>
    rw [resolve, resolveItems_of_paramFree params vs h]
    rfl
  | map es =>
    rw [resolve, resolveEntries_of_paramFree params es h]
    rfl
  | null | bool _ | int _ | long _ | double _ | str _ | uuid _ | instant _ | json _ => rfl
theorem resolveItems_of_paramFree (params : Entries Value) (vs : List Value)
    (h : ∀ name, param name ∉ itemLeaves vs) : resolveItems params vs = .ok vs := by
  match vs with
  | [] => rfl
  | v :: vs =>
    rw [resolveItems, resolve_of_paramFree params v fun n hn => h n (List.mem_append_left _ hn),
      resolveItems_of_paramFree params vs fun n hn => h n (List.mem_append_right _ hn)]
    rfl
theorem resolveEntries_of_paramFree (params : Entries Value) (es : List (String × Value))
    (h : ∀ name, param name ∉ entryLeaves es) : resolveEntries params es = .ok es := by
  match es with
  | [] => rfl
  | (k, v) :: es =>
    rw [resolveEntries, resolve_of_paramFree params v fun n hn => h n (List.mem_append_left _ hn),
      resolveEntries_of_paramFree params es fun n hn => h n (List.mem_append_right _ hn)]
    rfl
end

end Value

theorem Condition.leaves_resolve (params : Entries Value) (c : Condition) :
    (c.resolve params).map Condition.leaves = replaceLeaves params c.leaves := by
  rw [Condition.leaves, replaceLeaves_append, replaceLeaves_append, concat_assoc,
    ← Value.leaves_resolve, ← Value.leaves_resolve, ← Value.leaves_resolve, Condition.resolve]
  cases c.value.resolve params with
  | error e => rfl
  | ok value =>
    cases c.lower.resolve params with
    | error e => rfl
    | ok lower =>
      cases c.upper.resolve params with
      | error e => rfl
      | ok upper => exact congrArg Except.ok (List.append_assoc _ _ _)

theorem Condition.resolve_of_paramFree (params : Entries Value) (c : Condition)
    (h : ∀ name, .param name ∉ c.leaves) : c.resolve params = .ok c := by
  have hvalue : c.value.ParamFree := fun name hname =>
    h name (List.mem_append_left _ (List.mem_append_left _ hname))
  have hlower : c.lower.ParamFree := fun name hname =>
    h name (List.mem_append_left _ (List.mem_append_right _ hname))
  have hupper : c.upper.ParamFree := fun name hname => h name (List.mem_append_right _ hname)
  rw [Condition.resolve, Value.resolve_of_paramFree params _ hvalue,
    Value.resolve_of_paramFree params _ hlower, Value.resolve_of_paramFree params _ hupper]
  rfl

/-! ## Filters -/

namespace Filter

mutual
/-- The filter with its parameters replaced, and its groups as they are. -/
def resolve (params : Entries Value) : Filter → Except PlanningError Filter
  | cond c => (c.resolve params).map cond
  | not f => (resolve params f).map not
  | group clause fs => (resolveAll params fs).map (group clause)
def resolveAll (params : Entries Value) : List Filter → Except PlanningError (List Filter)
  | [] => .ok []
  | f :: fs => do
    let g ← resolve params f
    let gs ← resolveAll params fs
    .ok (g :: gs)
end

mutual
/-- The filter without empty groups and groups of one; none if it has no conditions. -/
def tidy : Filter → Option Filter
  | cond c => some (cond c)
  | not f => (tidy f).map not
  | group clause fs => grouped clause (tidyAll fs)
def tidyAll : List Filter → List Filter
  | [] => []
  | f :: fs => (tidy f).toList ++ tidyAll fs
end

mutual
/-- Normalizing a filter replaces its parameters and then clears its groups. -/
theorem normalize_eq (params : Entries Value) (f : Filter) :
    f.normalize params = (f.resolve params).map tidy := by
  match f with
  | cond c =>
    rw [normalize, resolve]
    cases c.resolve params <;> rfl
  | not f =>
    rw [normalize, resolve, normalize_eq params f]
    cases f.resolve params <;> rfl
  | group clause fs =>
    rw [normalize, resolve, normalizeAll_eq params fs]
    cases resolveAll params fs <;> rfl
theorem normalizeAll_eq (params : Entries Value) (fs : List Filter) :
    normalizeAll params fs = (resolveAll params fs).map tidyAll := by
  match fs with
  | [] => rfl
  | f :: fs =>
    rw [normalizeAll, resolveAll, normalize_eq params f, normalizeAll_eq params fs]
    cases f.resolve params with
    | error e => rfl
    | ok g => cases resolveAll params fs <;> rfl
end

theorem conditionsAll_append (fs gs : List Filter) :
    conditionsAll (fs ++ gs) = conditionsAll fs ++ conditionsAll gs := by
  induction fs with
  | nil => rfl
  | cons f fs ih => rw [List.cons_append, conditionsAll, conditionsAll, ih, List.append_assoc]

theorem conditionsAll_grouped (clause : Clause) (fs : List Filter) :
    conditionsAll (grouped clause fs).toList = conditionsAll fs := by
  match fs with
  | [] => rfl
  | [f] => rfl
  | f :: g :: fs => exact List.append_nil _

mutual
/-- Clearing the groups of a filter keeps its conditions in their order. -/
theorem conditionsAll_tidy (f : Filter) : conditionsAll f.tidy.toList = f.conditions := by
  match f with
  | cond c => rfl
  | not f =>
    rw [tidy, conditions, ← conditionsAll_tidy f]
    cases f.tidy <;> rfl
  | group clause fs => rw [tidy, conditionsAll_grouped, conditionsAll_tidyAll fs, conditions]
theorem conditionsAll_tidyAll (fs : List Filter) :
    conditionsAll (tidyAll fs) = conditionsAll fs := by
  match fs with
  | [] => rfl
  | f :: fs =>
    rw [tidyAll, conditionsAll_append, conditionsAll_tidy f, conditionsAll_tidyAll fs, conditionsAll]
end

theorem conditions_of_tidy {f g : Filter} (h : f.tidy = some g) : g.conditions = f.conditions := by
  rw [← conditionsAll_tidy f, h]
  exact (List.append_nil _).symm

mutual
theorem leaves_resolve (params : Entries Value) (f : Filter) :
    (f.resolve params).map leaves = replaceLeaves params f.leaves := by
  match f with
  | cond c =>
    have hleaves : (cond c).leaves = c.leaves := List.append_nil _
    rw [resolve, hleaves, ← Condition.leaves_resolve]
    cases c.resolve params with
    | error e => rfl
    | ok c => exact congrArg Except.ok (List.append_nil _)
  | not f =>
    rw [resolve]
    refine Eq.trans ?_ (leaves_resolve params f)
    cases f.resolve params <;> rfl
  | group clause fs =>
    rw [resolve]
    refine Eq.trans ?_ (leaves_resolveAll params fs)
    cases resolveAll params fs <;> rfl
theorem leaves_resolveAll (params : Entries Value) (fs : List Filter) :
    (resolveAll params fs).map (fun fs => (conditionsAll fs).flatMap Condition.leaves) =
      replaceLeaves params ((conditionsAll fs).flatMap Condition.leaves) := by
  match fs with
  | [] => rfl
  | f :: fs =>
    rw [conditionsAll, List.flatMap_append, replaceLeaves_append, ← leaves_resolveAll params fs]
    refine Eq.trans ?_ (congrArg (concat · _) (leaves_resolve params f))
    exact map_concat fun _ _ => List.flatMap_append
end

mutual
theorem resolve_of_paramFree (params : Entries Value) (f : Filter) (h : f.ParamFree) :
    f.resolve params = .ok f := by
  match f with
  | cond c =>
    rw [resolve, Condition.resolve_of_paramFree params c fun n hn =>
      h n (List.mem_append_left _ hn)]
    rfl
  | not f =>
    rw [resolve, resolve_of_paramFree params f h]
    rfl
  | group clause fs =>
    rw [resolve, resolveAll_of_paramFree params fs h]
    rfl
theorem resolveAll_of_paramFree (params : Entries Value) (fs : List Filter)
    (h : ∀ name, .param name ∉ (conditionsAll fs).flatMap Condition.leaves) :
    resolveAll params fs = .ok fs := by
  match fs with
  | [] => rfl
  | f :: fs =>
    rw [conditionsAll, List.flatMap_append] at h
    rw [resolveAll, resolve_of_paramFree params f fun n hn => h n (List.mem_append_left _ hn),
      resolveAll_of_paramFree params fs fun n hn => h n (List.mem_append_right _ hn)]
    rfl
end

theorem normalize_of_paramFree (params : Entries Value) {f : Filter} (h : f.ParamFree) :
    f.normalize params = .ok f.tidy := by
  rw [normalize_eq, resolve_of_paramFree params f h]
  rfl

variable {params : Entries Value} {f g : Filter}

theorem normalize_ok_iff : (∃ r, f.normalize params = .ok r) ↔
    ∀ name, .param name ∈ f.leaves → (params.lookup name).isSome := by
  rw [← replaceLeaves_ok_iff, ← leaves_resolve, normalize_eq]
  constructor
  · rintro ⟨r, hr⟩
    obtain ⟨g, hg, -⟩ := map_eq_ok.mp hr
    exact ⟨_, map_eq_ok.mpr ⟨g, hg, rfl⟩⟩
  · rintro ⟨ws, hws⟩
    obtain ⟨g, hg, -⟩ := map_eq_ok.mp hws
    exact ⟨_, map_eq_ok.mpr ⟨g, hg, rfl⟩⟩

/-- The leaves of a normalized filter are those of the filter with its parameters replaced. -/
theorem leaves_of_normalize (h : f.normalize params = .ok (some g)) :
    replaceLeaves params f.leaves = .ok g.leaves := by
  rw [normalize_eq] at h
  obtain ⟨f', hf', htidy⟩ := map_eq_ok.mp h
  rw [← leaves_resolve, hf', leaves, conditions_of_tidy htidy]
  rfl

end Filter
end Polystore
