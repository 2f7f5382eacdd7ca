import Polystore.Documents.Compile
import Polystore.Proofs.Query.Parameters
import Polystore.Sql.Compile

/-! # Normalized filters and their renderings

A normalized filter has no group of fewer than two elements, and normalizing it again changes
nothing. Clearing the groups is not seen in what a filter is rendered as: the renderers pass over
empty groups and write a group of one as its element themselves. -/

namespace Polystore
set_option autoImplicit false

/-! ## Canonical filters -/

namespace Filter

mutual
/-- Every group in the filter has two elements or more. -/
def Canonical : Filter → Prop
  | cond _ => True
  | not f => Canonical f
  | group _ fs => 2 ≤ fs.length ∧ AllCanonical fs
def AllCanonical : List Filter → Prop
  | [] => True
  | f :: fs => Canonical f ∧ AllCanonical fs
end

theorem allCanonical_append {fs gs : List Filter} :
    AllCanonical (fs ++ gs) ↔ AllCanonical fs ∧ AllCanonical gs := by
  induction fs with
  | nil => simp [AllCanonical]
  | cons f fs ih => simp [AllCanonical, ih, and_assoc]

theorem canonical_grouped (clause : Clause) {fs : List Filter} (h : AllCanonical fs) {g : Filter}
    (hg : grouped clause fs = some g) : g.Canonical := by
  match fs, h, hg with
  | [f], h, rfl => exact h.1
  | f :: f' :: fs, h, rfl => exact ⟨Nat.le_add_left 2 fs.length, h⟩

mutual
theorem canonical_of_tidy (f : Filter) {g : Filter} (h : f.tidy = some g) : g.Canonical := by
  match f with
  | cond c =>
    cases h
    exact trivial
  | not f =>
    obtain ⟨f', hf', hg⟩ := Option.map_eq_some_iff.mp h
    rw [← hg, Canonical]
    exact canonical_of_tidy f hf'
  | group clause fs => exact canonical_grouped clause (allCanonical_tidyAll fs) h
theorem allCanonical_tidyAll (fs : List Filter) : AllCanonical (tidyAll fs) := by
  match fs with
  | [] => exact trivial
  | f :: fs =>
    refine allCanonical_append.mpr ⟨?_, allCanonical_tidyAll fs⟩
    cases hf : f.tidy with
    | none => exact trivial
    | some g => exact ⟨canonical_of_tidy f hf, trivial⟩
end

mutual
/-- There is nothing to clear in a canonical filter. -/
theorem tidy_of_canonical (g : Filter) (h : g.Canonical) : g.tidy = some g := by
  match g with
  | cond c => rfl
  | not f => rw [tidy, tidy_of_canonical f h, Option.map_some]
  | group clause fs =>
    obtain ⟨hlength, hfs⟩ := h
    rw [tidy, tidyAll_of_canonical fs hfs]
    match fs, hlength with
    | f :: f' :: fs, _ => rfl
theorem tidyAll_of_canonical (fs : List Filter) (h : AllCanonical fs) : tidyAll fs = fs := by
  match fs with
  | [] => rfl
  | f :: fs =>
    rw [tidyAll, tidy_of_canonical f h.1, tidyAll_of_canonical fs h.2]
    rfl
end

theorem paramFree_of_tidy {f g : Filter} (h : f.ParamFree) (hg : f.tidy = some g) :
    g.ParamFree := by
  intro name hname
  rw [leaves, conditions_of_tidy hg] at hname
  exact h name hname

end Filter

/-! ## Renderings -/

namespace Sql

variable (d : Dialect) (s : Scope)

/-- The predicate of what is left of a filter. -/
def remaining (n : Nat) (negate : Bool) : Option Filter → Except Error (Bound (Option Pred))
  | none => .ok (none, [])
  | some f => predicate d s n negate true f

/-- Inside a group that is wrapped anyway, the number of elements decides nothing more. -/
theorem predicate_group (n : Nat) (negate : Bool) (clause : Clause) (fs : List Filter) :
    predicate d s n negate true (.group clause fs) =
      (predicates d s n negate true fs).map fun (ps, bs) =>
        (grouped (if negate then clause.flip else clause) true ps, bs) := rfl

theorem remaining_grouped (n : Nat) (negate : Bool) (clause : Clause) (fs : List Filter) :
    remaining d s n negate (Filter.grouped clause fs) =
      predicate d s n negate true (.group clause fs) := by
  match fs with
  | [] => rfl
  | [f] =>
    rw [predicate_group, predicates, Filter.grouped, remaining]
    cases predicate d s n negate true f with
    | error e => rfl
    | ok r =>
      obtain ⟨p, bs⟩ := r
      cases p with
      | none => exact congrArg (fun bs => Except.ok (none, bs)) (List.append_nil bs).symm
      | some p => exact congrArg (fun bs => Except.ok (some p, bs)) (List.append_nil bs).symm
  | f :: f' :: fs => rfl

mutual
/-- A filter and its cleared form are written with the same tests, markers and parentheses. -/
theorem remaining_tidy (n : Nat) (negate : Bool) (f : Filter) :
    remaining d s n negate f.tidy = predicate d s n negate true f := by
  match f with
  | .cond c => rfl
  | .not f =>
    rw [Filter.tidy, predicate, ← remaining_tidy n (!negate) f]
    cases f.tidy <;> rfl
  | .group clause fs =>
    rw [Filter.tidy, remaining_grouped, predicate_group, predicate_group, predicates_tidyAll n negate fs]
theorem predicates_tidyAll (n : Nat) (negate : Bool) (fs : List Filter) :
    predicates d s n negate true (Filter.tidyAll fs) = predicates d s n negate true fs := by
  match fs with
  | [] => rfl
  | f :: fs =>
    rw [Filter.tidyAll, predicates, ← remaining_tidy n negate f]
    cases f.tidy with
    | none =>
      -- What comes to nothing binds nothing, so the rest keeps the numbers of its markers.
      rw [Option.toList_none, List.nil_append, predicates_tidyAll n negate fs]
      show _ = (predicates d s n negate true fs >>= fun (ps, cs) => .ok ([] ++ ps, [] ++ cs))
      cases predicates d s n negate true fs <;> rfl
    | some g =>
      rw [Option.toList_some, List.singleton_append, predicates]
      simp only [remaining, predicates_tidyAll _ negate fs]
end

end Sql

namespace Documents

variable (s : Scope)

/-- The predicate of what is left of a filter. -/
def remaining (negate : Bool) : Option Filter → Except Error (Option Document)
  | none => .ok none
  | some f => predicate s negate f

theorem remaining_grouped (negate : Bool) (clause : Clause) (fs : List Filter) :
    remaining s negate (Filter.grouped clause fs) = predicate s negate (.group clause fs) := by
  match fs with
  | [] => rfl
  | [f] =>
    rw [predicate, predicates, Filter.grouped, remaining]
    cases predicate s negate f with
    | error e => rfl
    | ok p => cases p <;> rfl
  | f :: f' :: fs => rfl

mutual
theorem remaining_tidy (negate : Bool) (f : Filter) :
    remaining s negate f.tidy = predicate s negate f := by
  match f with
  | .cond c => rfl
  | .not f =>
    rw [Filter.tidy, predicate, ← remaining_tidy (!negate) f]
    cases f.tidy <;> rfl
  | .group clause fs =>
    rw [Filter.tidy, remaining_grouped, predicate, predicate, predicates_tidyAll negate fs]
theorem predicates_tidyAll (negate : Bool) (fs : List Filter) :
    predicates s negate (Filter.tidyAll fs) = predicates s negate fs := by
  match fs with
  | [] => rfl
  | f :: fs =>
    rw [Filter.tidyAll, predicates, ← remaining_tidy negate f]
    cases f.tidy with
    | none =>
      rw [Option.toList_none, List.nil_append, predicates_tidyAll negate fs]
      show _ = (predicates s negate fs >>= fun ps => .ok ([] ++ ps))
      cases predicates s negate fs <;> rfl
    | some g =>
      rw [Option.toList_some, List.singleton_append, predicates, predicates_tidyAll negate fs]
      rfl
end

end Documents

/-! ## Queries -/

/-- Read alike by the renderers of both families. -/
structure ReadAlike (a b : Option Filter) : Prop where
  sql : ∀ d s, Sql.predicate? d s true a = Sql.predicate? d s true b
  document : ∀ s, Documents.predicate? s a = Documents.predicate? s b

theorem readAlike_tidy (f : Filter) : ReadAlike (some f) f.tidy where
  sql d s := by
    refine (Sql.remaining_tidy d s 0 false f).symm.trans ?_
    cases f.tidy <;> rfl
  document s := by
    refine (Documents.remaining_tidy s false f).symm.trans ?_
    cases f.tidy <;> rfl

section
variable {a b : Option Filter}

theorem ReadAlike.reads (h : ReadAlike a b) (d : Sql.Dialect) (s : Scope) (sort : List SortField)
    (page : Page) (params : Entries Value) :
    Sql.select d s a sort page params = Sql.select d s b sort page params ∧
    Sql.count d s a params = Sql.count d s b params ∧
    Documents.select s a sort page params = Documents.select s b sort page params ∧
    Documents.count s a params = Documents.count s b params := by
  refine ⟨?_, ?_, ?_, ?_⟩
  · rw [Sql.select, Sql.filtered, h.sql, Sql.select, Sql.filtered]
  · rw [Sql.count, Sql.filtered, h.sql, Sql.count, Sql.filtered]
  · rw [Documents.select, h.document, Documents.select]
  · rw [Documents.count, h.document, Documents.count]

end

theorem Query.normalize_ok_iff (q : Query) : (∃ r, q.normalize = .ok r) ↔
    ∀ f, q.filter = some f → ∀ name, .param name ∈ f.leaves → (q.params.lookup name).isSome := by
  cases hfilter : q.filter with
  | none =>
    refine ⟨fun _ => nofun, fun _ => ⟨none, ?_⟩⟩
    rw [Query.normalize, hfilter]
  | some f =>
    have hnormalize : q.normalize = f.normalize q.params := by rw [Query.normalize, hfilter]
    rw [hnormalize, Filter.normalize_ok_iff]
    constructor
    · intro h g hg
      cases hg
      exact h
    · exact fun h => h f rfl

/-- Normalizing fails for parameters without a value and for nothing else. Of a filter without
parameters it makes a canonical one, which it leaves alone from then on, and which is rendered,
read and counted as the filter itself; nothing is left only of a filter that is no predicate. -/
theorem normalize_canonical_alike :
    (∀ q : Query, (∃ r, q.normalize = .ok r) ↔
      ∀ f, q.filter = some f → ∀ name, .param name ∈ f.leaves → (q.params.lookup name).isSome) ∧
    ∀ (f : Filter) (params : Entries Value), f.ParamFree → ∃ r, f.normalize params = .ok r ∧
      (∀ g, r = some g → g.Canonical ∧ ∀ params', g.normalize params' = .ok (some g)) ∧
      ReadAlike (some f) r ∧
      (r = none → (∀ d s, Sql.predicate? d s true (some f) = .ok (none, [])) ∧
        ∀ s, Documents.predicate? s (some f) = .ok none) ∧
      ∀ d s sort page params',
        Sql.select d s (some f) sort page params' = Sql.select d s r sort page params' ∧
        Sql.count d s (some f) params' = Sql.count d s r params' ∧
        Documents.select s (some f) sort page params' = Documents.select s r sort page params' ∧
        Documents.count s (some f) params' = Documents.count s r params' := by
  refine ⟨Query.normalize_ok_iff, fun f params hf => ?_⟩
  have halike := readAlike_tidy f
  refine ⟨f.tidy, Filter.normalize_of_paramFree params hf, fun g hg => ?_, halike, ?_, ?_⟩
  · have hcanonical := Filter.canonical_of_tidy f hg
    refine ⟨hcanonical, fun params' => ?_⟩
    rw [Filter.normalize_of_paramFree params' (Filter.paramFree_of_tidy hf hg),
      Filter.tidy_of_canonical g hcanonical]
  · intro hnone
    rw [hnone] at halike
    exact ⟨halike.sql, halike.document⟩
  · exact halike.reads

/-- NOT over a group of one element beside groups that come to nothing. -/
def crowded : Filter :=
  .group .and [.group .or [], .not (.group .or [.group .and [.not (.group .and [])],
    .cond (.of "status" .eq (.list [.str "open", .map [("n", .null)]]))])]

theorem crowded_cleared : crowded.ParamFree ∧
    ReadAlike (some crowded)
      (some (.not (.cond (.of "status" .eq (.list [.str "open", .map [("n", .null)]]))))) := by
  have hfree : crowded.ParamFree := by
    intro name hname
    simp [crowded, Filter.leaves, Filter.conditions, Filter.conditionsAll, Condition.leaves,
      Condition.of, Value.leaves, Value.itemLeaves, Value.entryLeaves] at hname
  obtain ⟨r, hr, -, halike, -⟩ := normalize_canonical_alike.2 crowded [] hfree
  rw [Filter.normalize_of_paramFree [] hfree] at hr
  cases hr
  exact ⟨hfree, halike⟩

end Polystore
