import Polystore.Documents.Predicate

/-! # Reading predicate documents

A reader of predicate documents that knows nothing of how they were made: `$and`, `$or` and `$nor`
join the documents of a list, `$expr` stands for a constant, and every other entry is a test at a
path. A document holds if all its entries do. -/

namespace Polystore.Documents
set_option autoImplicit false

def connectives : List String := ["$and", "$or", "$nor", "$expr"]

section
variable (test : String → Value → Bool)

mutual
/-- Whether a document holds, if `test` tells which tests do. -/
def holds : List (String × Value) → Bool
  | [] => true
  | (k, v) :: es => entryHolds k v && holds es
def entryHolds (k : String) : Value → Bool
  | .list items =>
    if k = "$and" then allHold items
    else if k = "$or" then anyHolds items
    else if k = "$nor" then !anyHolds items
    else test k (.list items)
  | .bool b => if k = "$expr" then b else test k (.bool b)
  | v => test k v
def allHold : List Value → Bool
  | [] => true
  | v :: vs => itemHolds v && allHold vs
def anyHolds : List Value → Bool
  | [] => false
  | v :: vs => itemHolds v || anyHolds vs
def itemHolds : Value → Bool
  | .map d => holds d
  | _ => false
end

end

section
variable {test : String → Value → Bool}

theorem holds_nil : holds test [] = true := by rw [holds]

theorem holds_entry (k : String) (v : Value) : holds test (entry k v) = entryHolds test k v := by
  rw [entry, holds, holds_nil, Bool.and_true]

variable (test) in
/-- What stands under no connective is a test. -/
theorem holds_test {path : String} (h : path ∉ connectives) (v : Value) :
    holds test (entry path v) = test path v := by
  simp only [connectives, List.mem_cons, List.not_mem_nil, or_false, not_or] at h
  obtain ⟨hand, hor, hnor, hexpr⟩ := h
  rw [holds_entry]
  cases v <;> simp only [entryHolds, if_neg hand, if_neg hor, if_neg hnor, if_neg hexpr]

theorem allHold_map (ds : List Document) :
    allHold test (ds.map .map) = ds.all (holds test) := by
  induction ds with
  | nil => rw [List.map_nil, allHold, List.all_nil]
  | cons d ds ih => rw [List.map_cons, allHold, itemHolds, ih, List.all_cons]

theorem anyHolds_map (ds : List Document) :
    anyHolds test (ds.map .map) = ds.any (holds test) := by
  induction ds with
  | nil => rw [List.map_nil, anyHolds, List.any_nil]
  | cons d ds ih => rw [List.map_cons, anyHolds, itemHolds, ih, List.any_cons]

variable (test) in
theorem holds_and (ds : List Document) :
    holds test (entry "$and" (.list (ds.map .map))) = ds.all (holds test) := by
  rw [holds_entry, entryHolds, if_pos rfl, allHold_map]

theorem holds_or (ds : List Document) :
    holds test (entry "$or" (.list (ds.map .map))) = ds.any (holds test) := by
  have hne : ¬("$or" : String) = "$and" := by decide
  rw [holds_entry, entryHolds, if_neg hne, if_pos rfl, anyHolds_map]

/-- An empty document is no predicate, and both predicates are what they are together. -/
theorem holds_both (a b : Document) :
    holds test (both a b) = (holds test a && holds test b) := by
  unfold both
  cases a with
  | nil => rw [if_pos List.isEmpty_nil, holds_nil, Bool.true_and]
  | cons e a =>
    rw [if_neg (by simp)]
    cases b with
    | nil => rw [if_pos List.isEmpty_nil, holds_nil, Bool.and_true]
    | cons e' b =>
      rw [if_neg (by simp)]
      have htwo := holds_and test [e :: a, e' :: b]
      rw [List.all_cons, List.all_cons, List.all_nil, Bool.and_true] at htwo
      exact htwo

def groupHolds (c : Clause) (bs : List Bool) : Bool :=
  match c with
  | .and => bs.all id
  | .or => bs.any id

theorem joined_some {c : Clause} {ds : List Document} (h : ds ≠ []) :
    ∃ d, joined c ds = some d ∧ ∀ test, holds test d = groupHolds c (ds.map (holds test)) := by
  match ds with
  | [] => exact absurd rfl h
  | [d] =>
    refine ⟨d, rfl, fun test => ?_⟩
    cases c <;> simp [groupHolds]
  | d :: d' :: ds =>
    refine ⟨_, rfl, fun test => ?_⟩
    cases c with
    | and =>
      rw [clauseKey, holds_and, groupHolds, List.all_map]
      rfl
    | or =>
      rw [clauseKey, holds_or, groupHolds, List.any_map]
      rfl

end
end Polystore.Documents
