import Polystore.Binding.Store

/-! # Registered binders

Binders for all dialects and all kinds of targets are registered in one table, in any order. Of
these calls the ones for a dialect and a kind of target decide what is bound, and how they lie among
the others does not matter. -/

namespace Polystore
set_option autoImplicit false

/-! ## Registrations -/

/-- A call that adds a binder to a table. -/
inductive Registration (T : Targets) where
  | inDialect (dialect : String) (e : BinderEntry T)
  | shared (e : BinderEntry T)

namespace Registration
variable {T : Targets}

/-- The table behind the call. -/
def addTo (t : BinderTable T) : Registration T → BinderTable T
  | inDialect dialect e => t.register dialect e
  | shared e => t.registerGlobal e

/-- The binder, if it is registered for the dialect and the kind of target. -/
def ofDialect? (dialect : String) (k : T.Key) : Registration T → Option (Binder (T.Carrier k))
  | inDialect d e => if d = dialect then e.for? k else none
  | shared _ => none

/-- The binder, if it is registered for all dialects and the kind of target. -/
def ofAll? (k : T.Key) : Registration T → Option (Binder (T.Carrier k))
  | inDialect _ _ => none
  | shared e => e.for? k

end Registration

/-- The table that the calls make of an empty one. -/
def BinderTable.ofRegistrations {T : Targets} (rs : List (Registration T)) : BinderTable T :=
  rs.foldl (fun t r => r.addTo t) empty

section
variable {T : Targets} (dialect : String) (k : T.Key)

/-- One call adds its binder behind those of its dialect, or behind the shared ones. -/
theorem addTo_for? (t : BinderTable T) (r : Registration T) :
    ((r.addTo t).ofDialect dialect).filterMap (·.for? k) =
        (t.ofDialect dialect).filterMap (·.for? k) ++ (r.ofDialect? dialect k).toList ∧
      (r.addTo t).shared.filterMap (·.for? k) =
        t.shared.filterMap (·.for? k) ++ (r.ofAll? k).toList := by
  cases r with
  | inDialect d e =>
    constructor
    · by_cases hd : d = dialect
      · subst hd
        simp only [Registration.addTo, BinderTable.register, BinderTable.ofDialect,
          Registration.ofDialect?, List.filter_append, List.map_append, List.filterMap_append,
          if_true]
        cases he : e.for? k <;> simp [he]
      · simp [Registration.addTo, BinderTable.register, BinderTable.ofDialect,
          Registration.ofDialect?, hd]
    · simp [Registration.addTo, BinderTable.register, Registration.ofAll?]
  | shared e =>
    constructor
    · simp [Registration.addTo, BinderTable.registerGlobal, BinderTable.ofDialect,
        Registration.ofDialect?]
    · simp only [Registration.addTo, BinderTable.registerGlobal, Registration.ofAll?,
        List.filterMap_append]
      cases he : e.for? k <;> simp [he]

theorem foldl_addTo_for? (rs : List (Registration T)) (t : BinderTable T) :
    ((rs.foldl (fun t r => r.addTo t) t).ofDialect dialect).filterMap (·.for? k) =
        (t.ofDialect dialect).filterMap (·.for? k) ++
          rs.filterMap (Registration.ofDialect? dialect k) ∧
      (rs.foldl (fun t r => r.addTo t) t).shared.filterMap (·.for? k) =
        t.shared.filterMap (·.for? k) ++ rs.filterMap (Registration.ofAll? k) := by
  induction rs generalizing t with
  | nil => simp
  | cons r rs ih =>
    obtain ⟨hown, hshared⟩ := addTo_for? dialect k t r
    obtain ⟨ihown, ihshared⟩ := ih (r.addTo t)
    constructor
    · rw [List.foldl_cons, ihown, hown]
      cases hr : r.ofDialect? dialect k <;> simp [hr]
    · rw [List.foldl_cons, ihshared, hshared]
      cases hr : r.ofAll? k <;> simp [hr]

theorem candidates_ofRegistrations (rs : List (Registration T)) :
    (BinderTable.ofRegistrations rs).candidates dialect k =
      rs.filterMap (Registration.ofDialect? dialect k) ++
        rs.filterMap (Registration.ofAll? k) := by
  obtain ⟨hown, hshared⟩ := foldl_addTo_for? dialect k rs BinderTable.empty
  rw [BinderTable.candidates, List.filterMap_append, BinderTable.ofRegistrations, hown, hshared]
  rfl

end

/-! ## The chosen binder -/

/-- The first of the binders that accepts the value: those in front of it do not. -/
structure FirstToAccept {τ : Type} (bs : List (Binder τ)) (ctx : BindContext) (b : Bind) (v : Value)
    (binder : Binder τ) : Prop where
  accepts : binder.accepts ctx b v = true
  first : ∃ before after, bs = before ++ binder :: after ∧
    ∀ earlier ∈ before, earlier.accepts ctx b v = false

/-- The choice between the binders of a dialect and the shared ones: one of its own, one of the
shared ones if none of its own accepts the value, and none if nobody accepts it. -/
inductive Chosen {τ : Type} (own common : List (Binder τ)) (ctx : BindContext) (b : Bind)
    (v : Value) : Option (Binder τ) → Prop where
  | own {binder : Binder τ} (h : FirstToAccept own ctx b v binder) :
    Chosen own common ctx b v (some binder)
  | common {binder : Binder τ} (hown : ∀ o ∈ own, o.accepts ctx b v = false)
    (h : FirstToAccept common ctx b v binder) : Chosen own common ctx b v (some binder)
  | missing (hown : ∀ o ∈ own, o.accepts ctx b v = false)
    (hcommon : ∀ c ∈ common, c.accepts ctx b v = false) : Chosen own common ctx b v none

section
variable {τ : Type} {bs own common : List (Binder τ)} {ctx : BindContext} {b : Bind} {v : Value}

theorem find?_accepts_eq_some {binder : Binder τ} :
    bs.find? (·.accepts ctx b v) = some binder ↔ FirstToAccept bs ctx b v binder := by
  rw [List.find?_eq_some_iff_append]
  constructor
  · rintro ⟨haccepts, before, after, hbs, hearlier⟩
    exact ⟨haccepts, before, after, hbs, fun e he => by simpa using hearlier e he⟩
  · rintro ⟨haccepts, before, after, hbs, hearlier⟩
    exact ⟨haccepts, before, after, hbs, fun e he => by simp [hearlier e he]⟩

theorem find?_accepts_eq_none :
    bs.find? (·.accepts ctx b v) = none ↔ ∀ o ∈ bs, o.accepts ctx b v = false := by
  simp [List.find?_eq_none]

/-- Asking the binders one after the other makes the choice. -/
theorem chosen_find? :
    Chosen own common ctx b v ((own ++ common).find? (·.accepts ctx b v)) := by
  rw [List.find?_append]
  cases hown : own.find? (·.accepts ctx b v) with
  | some binder => exact .own (find?_accepts_eq_some.mp hown)
  | none =>
    rw [Option.none_or]
    cases hcommon : common.find? (·.accepts ctx b v) with
    | some binder =>
      exact .common (find?_accepts_eq_none.mp hown) (find?_accepts_eq_some.mp hcommon)
    | none => exact .missing (find?_accepts_eq_none.mp hown) (find?_accepts_eq_none.mp hcommon)

/-- There is nothing else to choose. -/
theorem Chosen.eq_find? {choice : Option (Binder τ)} (h : Chosen own common ctx b v choice) :
    choice = (own ++ common).find? (·.accepts ctx b v) := by
  rw [List.find?_append]
  cases h with
  | own h => rw [find?_accepts_eq_some.mpr h, Option.some_or]
  | common hown h => rw [find?_accepts_eq_none.mpr hown, find?_accepts_eq_some.mpr h, Option.none_or]
  | missing hown hcommon =>
    rw [find?_accepts_eq_none.mpr hown, find?_accepts_eq_none.mpr hcommon, Option.none_or]

end

/-! ## Binding -/

namespace BinderTable
variable {T : Targets} (t : BinderTable T) {dialect : String} {k : T.Key} {ctx : BindContext}
  {b : Bind} {v : Value}

theorem runs_of_find?_eq_some {binder : Binder (T.Carrier k)} (target : T.Carrier k)
    (h : (t.candidates dialect k).find? (·.accepts ctx b v) = some binder) :
    t.bind dialect k target ctx b v = binder.bind target ctx b v ∧
      t.after dialect k target ctx b v = binder.after target ctx b v := by
  simp only [bind, after, h, and_self]

theorem missing_of_find?_eq_none (target : T.Carrier k)
    (h : (t.candidates dialect k).find? (·.accepts ctx b v) = none) :
    t.bind dialect k target ctx b v =
        .error (.binding ⟨dialect, T.name k, v.kind.text, b.typeId⟩) ∧
      t.after dialect k target ctx b v = target := by
  simp only [bind, after, h, and_self]

end BinderTable

/-- Two histories that register the same binders, in order, for a dialect and a kind of target bind
alike and leave the same target, whatever else they register and wherever. The chosen binder is the
one that runs; if there is none, that is reported and the target stays as it was. -/
theorem registered_binders_decide {T : Targets} {dialect : String} {k : T.Key}
    {rs rs' : List (Registration T)}
    (hown : rs.filterMap (Registration.ofDialect? dialect k) =
      rs'.filterMap (Registration.ofDialect? dialect k))
    (hcommon : rs.filterMap (Registration.ofAll? k) = rs'.filterMap (Registration.ofAll? k))
    (target : T.Carrier k) (ctx : BindContext) (b : Bind) (v : Value) :
    (BinderTable.ofRegistrations rs).bind dialect k target ctx b v =
        (BinderTable.ofRegistrations rs').bind dialect k target ctx b v ∧
      (BinderTable.ofRegistrations rs).after dialect k target ctx b v =
        (BinderTable.ofRegistrations rs').after dialect k target ctx b v ∧
      (∃ choice, Chosen (rs.filterMap (Registration.ofDialect? dialect k))
        (rs.filterMap (Registration.ofAll? k)) ctx b v choice) ∧
      ∀ choice, Chosen (rs.filterMap (Registration.ofDialect? dialect k))
          (rs.filterMap (Registration.ofAll? k)) ctx b v choice →
        match choice with
        | some binder =>
          (BinderTable.ofRegistrations rs).bind dialect k target ctx b v =
              binder.bind target ctx b v ∧
            (BinderTable.ofRegistrations rs).after dialect k target ctx b v =
              binder.after target ctx b v
        | none =>
          (BinderTable.ofRegistrations rs).bind dialect k target ctx b v =
              .error (.binding ⟨dialect, T.name k, v.kind.text, b.typeId⟩) ∧
            (BinderTable.ofRegistrations rs).after dialect k target ctx b v = target := by
  have hsame : (BinderTable.ofRegistrations rs).candidates dialect k =
      (BinderTable.ofRegistrations rs').candidates dialect k := by
    rw [candidates_ofRegistrations, candidates_ofRegistrations, hown, hcommon]
  refine ⟨?_, ?_, ⟨_, chosen_find?⟩, ?_⟩
  · rw [BinderTable.bind, BinderTable.bind, hsame]
  · rw [BinderTable.after, BinderTable.after, hsame]
  · intro choice hchoice
    have hfound := hchoice.eq_find?
    rw [← candidates_ofRegistrations] at hfound
    cases choice with
    | some binder => exact BinderTable.runs_of_find?_eq_some _ target hfound.symm
    | none => exact BinderTable.missing_of_find?_eq_none _ target hfound.symm

/-- A binder that has emptied the slot when it turns a collection down. -/
def clearingBinder : Binder BoundParams where
  kind := some .list
  supports _ _ _ := true
  bind _ _ b v := .error (.binding ⟨"postgres", "BoundParams", v.kind.text, b.typeId⟩)
  leaves ps ctx _ _ := ps.set (ctx.position?.getD 1) (.plain .null)

/-- Binders of parameter lists, those of the dialect first. -/
def paramBinders : List (Registration storeTargets) :=
  [.inDialect "postgres" (paramsEntry jsonbBinder),
    .inDialect "postgres" (paramsEntry clearingBinder), .shared (paramsEntry timestampBinder)]

/-- The same binders for Postgres, among those of other dialects and targets. -/
def mixedBinders : List (Registration storeTargets) :=
  [.inDialect "sqlite" (paramsEntry plainBinder), .shared (documentEntry pathBinder),
    .shared (paramsEntry timestampBinder), .inDialect "postgres" (documentEntry idBinder),
    .inDialect "postgres" (paramsEntry jsonbBinder),
    .inDialect "document" (documentEntry pathBinder),
    .inDialect "postgres" (paramsEntry clearingBinder)]

theorem mixedBinders_bind_like_paramBinders :
    (paramBinders.filterMap (Registration.ofDialect? "postgres" StoreTarget.params) =
        mixedBinders.filterMap (Registration.ofDialect? "postgres" StoreTarget.params) ∧
      paramBinders.filterMap (Registration.ofAll? StoreTarget.params) =
        mixedBinders.filterMap (Registration.ofAll? StoreTarget.params)) ∧
    (BinderTable.ofRegistrations mixedBinders).bind "postgres" StoreTarget.params []
        ⟨.insert, .position 1⟩ ⟨.str "a", "json"⟩ (.str "a") = .ok [some (.jsonb (some "a"))] ∧
    (BinderTable.ofRegistrations mixedBinders).after "postgres" StoreTarget.params [none]
        ⟨.insert, .position 1⟩ ⟨.list [], "list<int>"⟩ (.list []) = [some (.plain .null)] ∧
    (BinderTable.ofRegistrations paramBinders).bind "postgres" StoreTarget.params [none]
        ⟨.insert, .position 1⟩ ⟨.int 1, "int"⟩ (.int 1) =
      .error (.binding ⟨"postgres", "BoundParams", ValueKind.int.text, "int"⟩) ∧
    (BinderTable.ofRegistrations paramBinders).after "postgres" StoreTarget.params [none]
        ⟨.insert, .position 1⟩ ⟨.int 1, "int"⟩ (.int 1) = [none] := by
  have hown : paramBinders.filterMap (Registration.ofDialect? "postgres" StoreTarget.params) =
    mixedBinders.filterMap (Registration.ofDialect? "postgres" StoreTarget.params) := rfl
  have hcommon : paramBinders.filterMap (Registration.ofAll? StoreTarget.params) =
    mixedBinders.filterMap (Registration.ofAll? StoreTarget.params) := rfl
  have hdecide := registered_binders_decide hown hcommon
  obtain ⟨hjson, -⟩ := hdecide [] ⟨.insert, .position 1⟩ ⟨.str "a", "json"⟩ (.str "a")
  obtain ⟨-, hlist, -⟩ := hdecide [none] ⟨.insert, .position 1⟩ ⟨.list [], "list<int>"⟩ (.list [])
  obtain ⟨-, -, -, hchosen⟩ := hdecide [none] ⟨.insert, .position 1⟩ ⟨.int 1, "int"⟩ (.int 1)
  obtain ⟨hmissing, hunchanged⟩ := hchosen none chosen_find?
  exact ⟨⟨hown, hcommon⟩, hjson.symm, hlist.symm, hmissing, hunchanged⟩

end Polystore
