import Polystore.Json.Basic

/-! # TOML trees

Tables as they are built while a document is read. A table keeps how it came to be, as that decides
what may still be added to it. -/

namespace Polystore
set_option autoImplicit false

inductive Toml where
  | str (s : String)
  | int (n : Int)
  | float (d : Float)
  | bool (b : Bool)
  /-- A date, a time or both, as written. -/
  | moment (text : String)
  | list (items : List Toml)
  | table (entries : List (String × Toml))
deriving Inhabited

namespace Toml

/-- How a table came to be: by a header of its own, by a longer header, or by a dotted key. -/
inductive Origin where
  | header | implied | dotted
deriving DecidableEq, Repr

inductive Node where
  | value (v : Toml)
  | table (origin : Origin) (members : List (String × Node))
  /-- The tables of a repeated header; the last one is still open. -/
  | tables (before : List (List (String × Node))) (last : List (String × Node))

abbrev Members := List (String × Node)

mutual
def Node.tree : Node → Toml
  | .value v => v
  | .table _ ms => .table (trees ms)
  | .tables before last => .list (tableTrees before ++ [.table (trees last)])
def trees : List (String × Node) → List (String × Toml)
  | [] => []
  | (k, n) :: ms => (k, n.tree) :: trees ms
def tableTrees : List (List (String × Node)) → List Toml
  | [] => []
  | ms :: rest => .table (trees ms) :: tableTrees rest
end

/-! ## Headers -/

/-- Changes what a header's last key stands for, making the tables on the way to it. -/
def atHeader (change : Option Node → Option Node) : List String → Members → Option Members
  | [], _ => none
  | [k], ms => (change (ms.lookup k)).map fun n => Json.put k n ms
  | k :: ks, ms =>
    match ms.lookup k with
    | none => (atHeader change ks []).map fun sub => Json.put k (.table .implied sub) ms
    | some (.table o sub) => (atHeader change ks sub).map fun sub => Json.put k (.table o sub) ms
    | some (.tables before last) =>
      (atHeader change ks last).map fun last => Json.put k (.tables before last) ms
    | some (.value _) => none

/-- A table has one header; one that was only implied may still get it. -/
def openTable : Option Node → Option Node
  | none => some (.table .header [])
  | some (.table .implied ms) => some (.table .header ms)
  | _ => none

def openItem : Option Node → Option Node
  | none => some (.tables [] [])
  | some (.tables before last) => some (.tables (before ++ [last]) [])
  | _ => none

/-! ## Assignments -/

/-- Gives a dotted key a value in a table. Tables with a header are not added to by dotted keys, and
the innermost table must be one that dotted keys have made. -/
def assign (v : Toml) : List String → Members → Option Members
  | [], _ => none
  | [k], ms => if (ms.lookup k).isSome then none else some (Json.put k (.value v) ms)
  | k :: ks, ms =>
    match ms.lookup k with
    | none => (assign v ks []).map fun sub => Json.put k (.table .dotted sub) ms
    | some (.table o sub) =>
      if o == .header || (ks.length == 1 && o != .dotted) then none
      else (assign v ks sub).map fun sub => Json.put k (.table o sub) ms
    | some (.tables before last) =>
      if ks.length == 1 then none
      else (assign v ks last).map fun last => Json.put k (.tables before last) ms
    | some (.value _) => none

/-- Assigns below the table of the current header. -/
def assignAt (v : Toml) (key : List String) : List String → Members → Option Members
  | [], ms => assign v key ms
  | k :: ks, ms =>
    match ms.lookup k with
    | some (.table o sub) => (assignAt v key ks sub).map fun sub => Json.put k (.table o sub) ms
    | some (.tables before last) =>
      (assignAt v key ks last).map fun last => Json.put k (.tables before last) ms
    | _ => none

end Toml
end Polystore
