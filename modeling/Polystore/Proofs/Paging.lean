import Mathlib.Data.List.Sort
import Polystore.Proofs.Entries
import Polystore.Query.Basic

/-! # Paging

Rows are handed out a page at a time, each page behind the last row of the pages before it. If the
read of a page is about the matching rows strictly behind that row, the pages together are the
matching rows in their order: at any time what has been received is a first part of them, and the
next page is the beginning of the rest. If a row is asked for by every read, the pages never end. -/

namespace Polystore.Paging
set_option autoImplicit false

/-- The columns of a sort clause with their directions, the first one deciding first. -/
abbrev Order := List (String × SortDir)

/-- What a read asks of rows. -/
structure Wanted (R : Type) where
  keeps : R → Bool
  order : Order
  limit : Nat

/-! ## The order of rows -/

def Ahead {α : Type} [LT α] : SortDir → α → α → Prop
  | .asc, a, b => a < b
  | .desc, a, b => b < a

section
variable {α : Type} [LinearOrder α] {dir : SortDir} {a b c : α}

end

section
variable {R : Type} {K : String → Type} (stored : R → (c : String) → K c)

/-- Two rows that no column tells apart. -/
def Tied (order : Order) (x y : R) : Prop := ∀ e ∈ order, stored x e.1 = stored y e.1

def Distinct (order : Order) (rows : List R) : Prop :=
  rows.Pairwise fun x y => ¬Tied stored order x y

variable [∀ c, LinearOrder (K c)]

/-- A row comes before another one by the first column, or with the same value in it by the
others. -/
def Before : Order → R → R → Prop
  | [], _, _ => False
  | (c, dir) :: order, x, y =>
    Ahead dir (stored x c) (stored y c) ∨ stored x c = stored y c ∧ Before order x y

def Behind (order : Order) (after : Option R) (x : R) : Prop :=
  ∀ y ∈ after, Before stored order y x

variable {stored} {order : Order} {x y z : R}

variable (stored order) in
/-- An arrangement in which no row stands behind one that it comes before. -/
def Sorted (rows : List R) : Prop := rows.Pairwise fun x y => ¬Before stored order y x

variable (stored) in
/-- What a store may hand back of some rows: the first `n` of them in a sorted arrangement. -/
def Answer (order : Order) (n : Nat) (rows out : List R) : Prop :=
  ∃ all : List R, all.Perm rows ∧ Sorted stored order all ∧ out = all.take n

variable (stored) in
/-- What a store may reply to the read of the page behind a row, or of the first one. -/
def Reply (asked : Option R → Wanted R → Prop) (rows : List R) (after : Option R)
    (out : List R) : Prop :=
  ∃ w, asked after w ∧ Answer stored w.order w.limit (rows.filter w.keeps) out

/-- A read of the rows that are asked for. -/
structure Next (rows : List R) (asks : R → Prop) (order : Order) (limit : Nat) (w : Wanted R) :
    Prop where
  order_eq : w.order = order
  limit_pos : 0 < w.limit
  limit_le : w.limit ≤ limit
  keeps_iff : ∀ x ∈ rows, w.keeps x = true ↔ asks x

variable (stored) in
/-- There is exactly one read behind every row, of the matching rows behind it, and one to begin
with. -/
def Seeks (asked : Option R → Wanted R → Prop) (rows : List R) (meets : R → Bool) (order : Order)
    (limit : Nat) : Prop :=
  ∀ after : Option R, (∀ y ∈ after, y ∈ rows) → ∃ w, (∀ w', asked after w' ↔ w' = w) ∧
    Next rows (fun x => meets x = true ∧ Behind stored order after x) order limit w

variable (stored) in
/-- Beside the matching rows behind a row each read asks for some rows that are asked for always. -/
def SeeksBeside (asked : Option R → Wanted R → Prop) (rows : List R) (always meets : R → Bool)
    (order : Order) (limit : Nat) : Prop :=
  ∀ after : Option R, (∀ y ∈ after, y ∈ rows) → ∃ w, (∀ w', asked after w' ↔ w' = w) ∧
    Next rows (fun x => always x = true ∨ meets x = true ∧ Behind stored order after x) order
      limit w

/-- The pages received so far, each of them behind the last row of those before it. -/
inductive Received (page : Option R → List R → Prop) : List (List R) → Prop
  | nothing : Received page []
  | next {pages : List (List R)} {out : List R} (h : Received page pages)
    (hp : page pages.flatten.getLast? out) : Received page (pages ++ [out])

section
variable {asked : Option R → Wanted R → Prop} {rows all received rest : List R} {meets : R → Bool}
  {limit : Nat}

variable {always : R → Bool} {pages : List (List R)} {out : List R} {x : R}

theorem SeeksBeside.seeks (hseeks : SeeksBeside stored asked rows always meets order limit)
    (hnone : ∀ x ∈ rows, always x = false) : Seeks stored asked rows meets order limit := by
  intro after hafter
  obtain ⟨w, hasked, hw⟩ := hseeks after hafter
  refine ⟨w, hasked, hw.order_eq, hw.limit_pos, hw.limit_le, fun x hx => ?_⟩
  rw [hw.keeps_iff x hx, hnone x hx]
  exact or_iff_right Bool.false_ne_true

theorem Received.mem (h : Received (Reply stored asked rows) pages) :
    ∀ x ∈ pages.flatten, x ∈ rows := by
  induction h with
  | nothing => exact nofun
  | next _ hpage ih =>
    obtain ⟨w, -, arrangement, hp, -, rfl⟩ := hpage
    intro x hx
    rw [List.flatten_concat] at hx
    rcases List.mem_append.mp hx with hx | hx
    · exact ih x hx
    · exact (List.mem_filter.mp (hp.mem_iff.mp (List.mem_of_mem_take hx))).1

end
end

/-! ## The sort values of a row -/

/-- What a page is sought with behind a row: its values in the sort fields. There are none to begin
with. -/
def sortValues {R : Type} (shown : R → String → Value) (sort : List SortField) :
    Option R → Entries Value
  | none => []
  | some y => Entries.ofList (sort.map fun f => (f.field, shown y f.field))

section
variable {R : Type} {sort : List SortField}

theorem lookup_sortValues (shown : R → String → Value) (y : R) {f : SortField}
    (hf : f ∈ sort) : (sortValues shown sort (some y)).lookup f.field = some (shown y f.field) := by
  have hmem : f.field ∈ sort.map SortField.field := List.mem_map_of_mem hf
  have hmap : sort.map (fun f => (f.field, shown y f.field)) =
      (sort.map SortField.field).map fun k => (k, shown y k) := by
    rw [List.map_map]
    rfl
  rw [sortValues, hmap]
  exact Entries.lookup_ofList_map _ hmem

end
end Polystore.Paging
