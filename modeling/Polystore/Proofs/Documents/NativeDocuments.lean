import Polystore.Proofs.Counting
import Polystore.Proofs.Json.Arranging

/-! # Native documents

The filter or the stages of a native query are documents, which have their keys in order. So they
stand in a read as they were authored only if their keys were in order, at every level, and a sort
stage of several keys sorts by the first one of the alphabet. -/

namespace Polystore.Documents
set_option autoImplicit false

/-- The documents of a native query: its filter, or the steps of its pipeline. -/
def authored (q : NativeQuery) : List Json :=
  ((present? q.sql).toList ++ (present? q.projection).toList).flatMap stepsOf

/-- The document is what the tree is read as. Written back it is the tree with its keys in order,
and so the tree itself if they were in order. -/
structure Arranges (d : Document) (j : Json) : Prop where
  written : (Value.map d).toJson = j.arranged
  same_iff : (Value.map d).toJson = j ↔ j.Arranged

/-- A read has the documents of its native query ahead of the stages that the caller asks for, none
of which is native, or it has one as its filter, next to what the caller asks for. -/
inductive Carries (st : Statement) : List Document → Prop where
  | stages {docs : List Document} (later : List Stage)
    (hstages : st.pipeline = docs.map .native ++ later) (hlater : ∀ d, .native d ∉ later) :
    Carries st docs
  | filter {d : Document} (restriction : Document) (hfilter : st.filter = both d restriction)
    (hstages : st.pipeline = []) : Carries st [d]
  | nothing (hstages : st.pipeline = []) : Carries st []

/-! ## Reading the documents -/

section
variable {viewId : String} {params : Entries Value}

theorem nativeDocument_arranges {j : Json} {d : Document} (hproper : j.Proper) (hplain : j.Plain)
    (h : nativeDocument viewId params j = .ok d) : Arranges d j := by
  rw [nativeDocument, Value.resolve_ofJson hplain] at h
  have hread : Value.ofJson j = .map d := by
    cases hvalue : Value.ofJson j with
    | map es =>
      rw [hvalue] at h
      cases h
      rfl
    | _ =>
      rw [hvalue] at h
      cases h
  have hwritten : (Value.map d).toJson = j.arranged := by
    rw [← hread, Value.toJson_ofJson j hproper hplain]
  refine ⟨hwritten, ?_⟩
  rw [hwritten]
  exact Json.arranged_eq_self j

theorem nativeStages_arrange {js : List Json} {stages : List Stage}
    (hproper : ∀ j ∈ js, j.Proper) (hplain : ∀ j ∈ js, j.Plain)
    (h : nativeStages viewId params js = .ok stages) :
    ∃ docs, stages = docs.map .native ∧ List.Forall₂ Arranges docs js := by
  induction js generalizing stages with
  | nil =>
    cases h
    exact ⟨[], rfl, .nil⟩
  | cons j js ih =>
    obtain ⟨hj, hjs⟩ := List.forall_mem_cons.mp hproper
    obtain ⟨hplainj, hplainjs⟩ := List.forall_mem_cons.mp hplain
    obtain ⟨d, hd, h⟩ := bind_eq_ok.mp h
    obtain ⟨rest, hrest, h⟩ := bind_eq_ok.mp h
    cases h
    obtain ⟨docs, rfl, hdocs⟩ := ih hjs hplainjs hrest
    exact ⟨d :: docs, rfl, .cons (nativeDocument_arranges hj hplainj hd) hdocs⟩

/-- A native query that is no pipeline has no list in the place of its filter. -/
theorem stepsOf_of_not_isArray {j : Json} (h : isArray j = false) : stepsOf j = [j] := by
  cases j with
  | arr items => cases h
  | _ => rfl

theorem nativeBase_arranges {q : NativeQuery} {b : Base} (hproper : ∀ j ∈ authored q, j.Proper)
    (hplain : ∀ j ∈ authored q, j.Plain) (h : nativeBase viewId q params = .ok b) :
    match b with
    | .pipeline stages => ∃ docs, stages = docs.map .native ∧
        List.Forall₂ Arranges docs (authored q)
    | .filter d => List.Forall₂ Arranges [d] (authored q) ∨ authored q = [] := by
  unfold nativeBase at h
  simp only at h
  split at h
  · obtain ⟨stages, hstages, rfl⟩ := map_eq_ok.mp h
    exact nativeStages_arrange hproper hplain hstages
  · rename_i hpipeline
    rw [Bool.not_eq_true, Bool.or_eq_false_iff, Option.isSome_eq_false_iff,
      Option.isNone_iff_eq_none] at hpipeline
    obtain ⟨hprojection, hsql⟩ := hpipeline
    split at h
    · rename_i hnone
      cases h
      right
      rw [authored, hnone, hprojection]
      rfl
    · rename_i j hj
      obtain ⟨d, hd, rfl⟩ := map_eq_ok.mp h
      have hsteps : authored q = [j] := by
        rw [hj, Option.any_some, Bool.or_eq_false_iff] at hsql
        rw [authored, hj, hprojection]
        exact (List.append_nil _).trans (stepsOf_of_not_isArray hsql.1)
      rw [hsteps, List.forall_mem_singleton] at hproper hplain
      left
      rw [hsteps]
      exact .cons (nativeDocument_arranges hproper hplain hd) .nil

end

/-! ## Reads -/

section
variable {s : Scope} {filter : Option Filter} {sort : List SortField} {page : Page}
  {params : Entries Value} {st : Statement}

theorem native_not_mem_later (restriction : Document) (keys : List SortKey) (n m : UInt64)
    (d : Document) :
    .native d ∉ filterStage restriction ++ sortStage keys ++ skipStage n ++ [.limit m] := by
  unfold filterStage sortStage skipStage
  split <;> split <;> split <;> simp

theorem native_not_mem_counted (restriction d : Document) :
    .native d ∉ filterStage restriction ++ [.count countField] := by
  unfold filterStage
  split <;> simp

variable {docs : List Document} (restriction : Document) (collection : String)

theorem readOf_carries :
    Carries (readOf s.view sort page collection restriction (.pipeline (docs.map .native)))
      docs := by
  refine .stages (filterStage restriction ++ sortStage (sortKeys s.view sort) ++
    skipStage (skipped page) ++ [.limit page.limit]) ?_ (native_not_mem_later _ _ _ _)
  simp only [readOf, List.append_assoc]

theorem countOf_carries :
    Carries (countOf collection restriction (.pipeline (docs.map .native))) docs := by
  refine .stages (filterStage restriction ++ [.count countField]) ?_
    (native_not_mem_counted _)
  simp only [countOf, List.append_assoc]

/-- A read or a count starts from the base of the view. -/
theorem starts_from_base
    (h : (∃ filter sort page, select s filter sort page params = .ok st) ∨
      ∃ filter, count s filter params = .ok st) :
    ∃ b, base s.view params = .ok b ∧ match b with
      | .filter d => ∃ restriction, st.filter = both d restriction ∧ st.pipeline = []
      | .pipeline stages => ∀ docs, stages = docs.map .native → Carries st docs := by
  rcases h with ⟨filter, sort, page, h⟩ | ⟨filter, h⟩
  · obtain ⟨collection, p, later, b, -, -, -, hb, rfl⟩ := select_eq_ok.mp h
    refine ⟨b, hb, ?_⟩
    cases b with
    | filter d => exact ⟨both (p.getD []) (later.getD []), rfl, rfl⟩
    | pipeline stages =>
      rintro docs rfl
      exact readOf_carries _ _
  · rw [count_eq] at h
    obtain ⟨⟨collection, restriction, b⟩, hopening, rfl⟩ := map_eq_ok.mp h
    refine ⟨b, opening_base hopening, ?_⟩
    cases b with
    | filter d => exact ⟨restriction, rfl, rfl⟩
    | pipeline stages =>
      rintro docs rfl
      exact countOf_carries _ _

end

/-- Of every read and count over a native query without references: it has the documents of the
query, each of which, written back as JSON, is the authored one with the keys of its objects in
order and with doubles for the whole numbers beyond 64 signed bits. So it is the authored one
exactly if all keys were in order, at every level, and there were no such numbers. -/
theorem native_documents_arranged {s : Scope} {q : NativeQuery} (hq : s.view.native = some q)
    (hproper : ∀ j ∈ authored q, j.Proper) (hplain : ∀ j ∈ authored q, j.Plain)
    {params : Entries Value} {st : Statement}
    (h : (∃ filter sort page, select s filter sort page params = .ok st) ∨
      ∃ filter, count s filter params = .ok st) :
    ∃ docs, Carries st docs ∧ List.Forall₂ Arranges docs (authored q) := by
  obtain ⟨b, hb, hst⟩ := starts_from_base h
  rw [base, hq] at hb
  have hdocs := nativeBase_arranges hproper hplain hb
  cases b with
  | filter d =>
    obtain ⟨restriction, hfilter, hpipeline⟩ := hst
    rcases hdocs with hdocs | hnothing
    · exact ⟨[d], .filter restriction hfilter hpipeline, hdocs⟩
    · exact ⟨[], .nothing hpipeline, hnothing ▸ .nil⟩
  | pipeline stages =>
    obtain ⟨docs, hstages, hdocs⟩ := hdocs
    exact ⟨docs, hst docs hstages, hdocs⟩

/-- By name, and by age where the names are the same. -/
def ranking : Json := .obj [("$sort", .obj [("name", .int 1), ("age", .int (-1))])]

def rankedPeople : Scope :=
  { Sql.people with view := { Sql.people.view with
      native := some ⟨some (.arr [ranking]), none, false⟩ } }

theorem ranking_rearranged :
    ranking.Proper ∧ ranking.Plain ∧ ∃ st d,
      select rankedPeople none [] (.offset 0 10) [] = .ok st ∧
      st.pipeline = [.native d, .limit 10] ∧
      (Value.map d).toJson = .obj [("$sort", .obj [("age", .int (-1)), ("name", .int 1)])] ∧
      (Value.map d).toJson ≠ ranking := by
  have hproper : ranking.Proper := by simp [ranking, Json.Proper, Json.ProperMembers]
  have hplain : ranking.Plain := by
    have hvalues : (Value.ofJson ranking).leaves = [.long (-1), .long 1] := rfl
    intro name h
    have hparam := Value.param_of_mentions h (by simp [ranking, Json.Distinct, Json.DistinctMembers])
    rw [hvalues] at hparam
    simp at hparam
  have hselect : ∃ st d, select rankedPeople none [] (.offset 0 10) [] = .ok st ∧
    st.pipeline = [.native d, .limit 10] := ⟨_, _, rfl, rfl⟩
  obtain ⟨st, d, hselect, hpipeline⟩ := hselect
  have hq : rankedPeople.view.native = some ⟨some (.arr [ranking]), none, false⟩ := rfl
  obtain ⟨docs, hcarries, hdocs⟩ := native_documents_arranged hq
    (List.forall_mem_singleton.mpr hproper) (List.forall_mem_singleton.mpr hplain)
    (.inl ⟨none, [], .offset 0 10, hselect⟩)
  obtain ⟨d', rest, hd, hrest, rfl⟩ := List.forall₂_cons_right_iff.mp hdocs
  cases hrest
  have hsame : d = d' := by
    cases hcarries with
    | stages later hstages _ =>
      rw [hpipeline] at hstages
      exact Stage.native.inj (List.cons.inj hstages).1
    | filter restriction _ hnone =>
      rw [hpipeline] at hnone
      cases hnone
  subst hsame
  refine ⟨hproper, hplain, st, d, hselect, hpipeline, hd.written, fun hsame => ?_⟩
  have hkeys : Entries.Sorted [("name", Json.int 1), ("age", Json.int (-1))] :=
    (hd.same_iff.mp hsame).2.1.1
  obtain ⟨hfirst, -⟩ := Entries.sorted_cons.mp hkeys
  exact absurd (hfirst _ List.mem_cons_self) (by decide)

end Polystore.Documents
