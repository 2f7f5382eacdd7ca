import Mathlib
import Polystore.Proofs.Documents.Seeking
import Polystore.Proofs.Sql.Seeking

/-! # Pages behind a row

Each family of stores compiles seek pages on its own, a predicate of its own making beside a sort
clause of its own. In both the two agree, so that the pages hand out every row once.

The rows are those of a table or a collection, those that a native query selects from, or what the
stages of a native pipeline make of a collection. A native SQL text may have a condition of its own,
which the statement goes on with AND and without parentheses: all its alternatives but the last hold
whatever the page asks, and their rows are handed out again and again. -/

namespace Polystore
set_option autoImplicit false

open Paging
open Sql.Native (Word Choice)

abbrev Score := Int64 × Int64

def Score.column (x : Score) (name : String) : Int64 := if name = "level" then x.1 else x.2

end Polystore
