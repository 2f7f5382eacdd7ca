import Polystore.Error
import Polystore.Number.Reading
import Polystore.Query.Basic
import Polystore.Sql.Statement
import Polystore.Sql.Token
import Polystore.Write.Basic

/-! # What dialects can say

Pages, returned keys, upserts and the operators on arrays and JSON. -/

namespace Polystore.Sql
set_option autoImplicit false

open Tokens (key spaced commaSeparated parenthesized)

def identList (columns : List String) : Tokens := commaSeparated (columns.map fun c => [.ident c])

/-! ## Pages -/

/-- Counts beyond the signed words are cut to the greatest of them. -/
def clampedInt (n : UInt64) : Tokens := [.litInt (Number.clamp64 n.toNat).toInt]

def limitOffset : Page → Tokens
  | .seek limit _ => spaced [key .limit, clampedInt limit]
  | .offset offset limit =>
    spaced [key .limit, clampedInt limit, key .offset, clampedInt offset]

def fetchFirst (limit : UInt64) : List Tokens :=
  [key .fetch, key .first, clampedInt limit, key .rows, key .only]

def offsetFetch : Page → Tokens
  | .seek limit _ => spaced (fetchFirst limit)
  | .offset offset limit =>
    spaced ([key .offset, clampedInt offset, key .rows] ++ fetchFirst limit)

namespace Dialect

def page : Dialect → Page → Tokens
  | ansi => offsetFetch
  | postgres => limitOffset

/-! ## Writes -/

/-- How an insert is run that wants keys back or not. -/
def insertExec (d : Dialect) (returning : Bool) : ExecKind :=
  if returning then
    match d with
    | ansi => .updateGeneratedKeys
    | postgres => .queryOneValue
  else .update

/-- The clause that returns columns; nothing where generated keys are read instead. -/
def returning : Dialect → List String → Tokens
  | ansi, _ => []
  | postgres, columns =>
    if columns.isEmpty then [] else spaced [key .returning, identList columns]

def assignment (column : String) : Tokens :=
  spaced [[.ident column], key .eq, [.key .excluded, .key .dot, .ident column]]

/-- Completes an insert to an upsert. Something must be assigned, if only the conflict columns. -/
def upsert (d : Dialect) (insert : Tokens) (w : Upsert) :
    Except PlanningError (Tokens × ExecKind) :=
  match d with
  | ansi => .error (.unsupportedUpsert d.name)
  | postgres =>
    if w.conflict.isEmpty then .error (.noConflictColumns w.insert.table)
    else
      let updates := if w.updates.isEmpty then w.conflict else w.updates
      let clauses := [insert, key .on, key .conflict, parenthesized (identList w.conflict),
        key .do, key .update, key .set, commaSeparated (updates.map assignment)]
      let back := d.returning w.insert.returning
      .ok (spaced (clauses ++ if back.isEmpty then [] else [back]),
        d.insertExec (!w.insert.returning.isEmpty))

/-! ## Operators -/

def unsupported (d : Dialect) (op : Operator) : PlanningError := .unsupportedOperator op d.name

def binary (expr op : String) (operand : Token) : Tokens :=
  spaced [[.raw expr], [.raw op], [operand]]

/-- The array holds every element of the list at the marker. -/
def arrayContains (d : Dialect) (expr : String) (marker : Token) : Except PlanningError Tokens :=
  match d with
  | ansi => .error (d.unsupported .arrayContains)
  | postgres => .ok (binary expr "@>" marker)

/-- The array shares an element with the list at the marker. -/
def arrayOverlaps (d : Dialect) (expr : String) (marker : Token) : Except PlanningError Tokens :=
  match d with
  | ansi => .error (d.unsupported .arrayOverlaps)
  | postgres => .ok (binary expr "&&" marker)

def pathLiteral (segments : List String) : String := "\x7b" ++ ",".intercalate segments ++ "\x7d"

def jsonPathExists (d : Dialect) (expr : String) (segments : List String) :
    Except PlanningError Tokens :=
  match d with
  | ansi => .error (d.unsupported .jsonPathExists)
  | postgres => .ok (spaced [binary expr "#>" (.litString (pathLiteral segments)), key .isNotNull])

/-- The JSON document contains the fragment at the marker. -/
def jsonValueEq (d : Dialect) (expr : String) (marker : Token) : Except PlanningError Tokens :=
  match d with
  | ansi => .error (d.unsupported .jsonValueEq)
  | postgres => .ok (binary expr "@>" marker)

end Dialect
end Polystore.Sql
