import Polystore.Model.View
import Polystore.Types.Table
import Polystore.Value.Path

/-! # Rows

Reading property paths from what a store hands back, whatever it calls them. A row is a document
under layers, each of which says how a path is called in the layer below. -/

namespace Polystore
set_option autoImplicit false

inductive Row where
  /-- A document: a path is a key, or else leads through nested maps. -/
  | plain (d : Document)
  /-- A text put before every path. -/
  | under (base : Row) (lead : String)
  /-- Paths by the labels of a view. -/
  | labelled (base : Row) (v : View) (lead : String)
  /-- Paths by the explicit mappings of a view. -/
  | mapped (base : Row) (v : View) (lead : String)

namespace Row

/-! ## Labels -/

def isLabelChar (c : Char) : Bool := !(Text.isBlank c || c == '(' || c == ')')

/-- The last name of a mapped column; an expression has none. -/
def labelOf? (target : String) : Option String :=
  let t := Text.trim target
  let last := match Text.splitLast? '.' t with
    | some (_, name) => if name.isEmpty then t else name
    | none => t
  if last.toList.all isLabelChar then some last else none

/-- The declared label of a path, or the path where there is a column of this name, or the last
name of its mapped column. -/
def label (v : View) (has : String → Bool) (path : String) : String :=
  match v.labels.lookup path with
  | some l => l
  | none => if has path then path else ((v.explicitRef? path).bind labelOf?).getD path

/-! ## Reading -/

/-- The value under a key; where there is no such key and it has a dot, it is a path. -/
def atKey? (d : Document) (path : String) : Option Value :=
  match d.lookup path with
  | some v => some v
  | none =>
    match Text.splitOnce? '.' path with
    | none => none
    | some (head, rest) => Document.below? d head rest

def find? : Row → String → Option Value
  | plain d, path => atKey? d path
  | under base lead, path => find? base (lead ++ path)
  | labelled base v lead, path =>
    find? base (label v (fun p => (find? base p).isSome) (lead ++ path))
  | mapped base v lead, path => find? base (PathPolicy.explicit.column v (lead ++ path))

/-- Whether the row has the path at all, be it null. -/
def has (r : Row) (path : String) : Bool := (r.find? path).isSome

def raw (r : Row) (path : String) : Value := (r.find? path).getD .null

def isNull (r : Row) (path : String) : Bool := (r.raw path).isNull

def decode (r : Row) (types : TypeTable) (path typeId : String) : Except CodecError Value :=
  types.decode typeId (r.raw path)

/-- The map at a path, also if it is stored as JSON text. -/
def map? (r : Row) (types : TypeTable) (path : String) : Except CodecError (Option Document) :=
  match r.decode types path "json" with
  | .error e => .error e
  | .ok .null => .ok none
  | .ok (.map m) => .ok (some m)
  | .ok v => .error (.decode "json" v.kind.text ("not a map at '" ++ path ++ "'"))

/-! ## Objects -/

def withoutEndDots (path : String) : String :=
  String.ofList (path.toList.reverse.dropWhile (· == '.')).reverse

/-- A nested object that is stored as one JSON value. -/
def opaqueObject (base : Row) (types : TypeTable) (name : String) : Option Row :=
  match base.decode types name "json" with
  | .ok (.map d) => some (plain d)
  | _ => none

def isBlob (v : View) (path : String) : Bool := !path.isEmpty && v.mode path == .blob

/-- The row of the paths below a text; none if an object stored as one value is not there. -/
def object? (r : Row) (types : TypeTable) (lead : String) : Option Row :=
  match r with
  | plain d => some (under (plain d) lead)
  | under base outer => some (under base (outer ++ lead))
  | labelled base v outer =>
    let root := withoutEndDots (outer ++ lead)
    if isBlob v root then opaqueObject base types (label v base.has root)
    else some (labelled base v (outer ++ lead))
  | mapped base v outer =>
    let root := withoutEndDots (outer ++ lead)
    if isBlob v root then opaqueObject base types (PathPolicy.explicit.column v root)
    else some (mapped base v (outer ++ lead))

end Row
end Polystore
