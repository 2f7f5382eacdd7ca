import Polystore.Binding.Basic

/-! # Parameter markers in SQL text

A marker is a colon followed by a name of ASCII letters, digits and underscores. A pair of colons
is a cast, and nothing inside a single-quoted literal is a marker. -/

namespace Polystore.Sql
set_option autoImplicit false

def isNameStart (c : Char) : Bool := c.isAlpha || c == '_'

def isNamePart (c : Char) : Bool := isNameStart c || c.isDigit

/-- A piece of SQL text: a character of its own, or a marker with its name. -/
inductive Piece where
  | char (c : Char)
  | marker (name : List Char)
deriving DecidableEq, Repr

def Piece.chars : Piece → List Char
  | char c => [c]
  | marker name => ':' :: name

theorem length_dropWhile_name (cs : List Char) : (cs.dropWhile isNamePart).length ≤ cs.length :=
  (List.dropWhile_sublist isNamePart).length_le

/-- Cuts text into pieces; `quoted` tells that it begins inside a literal. -/
def pieces (quoted : Bool) : List Char → List Piece
  | [] => []
  | c :: r =>
    if c = '\'' then .char c :: pieces (!quoted) r
    else if c = ':' ∧ quoted = false then
      match r with
      | [] => [.char c]
      | d :: r =>
        if d = ':' then .char c :: .char d :: pieces quoted r
        else if isNameStart d then
          .marker (d :: r.takeWhile isNamePart) :: pieces quoted (r.dropWhile isNamePart)
        else .char c :: pieces quoted (d :: r)
    else .char c :: pieces quoted r
termination_by cs => cs.length
decreasing_by
  all_goals simp only [List.length_cons]
  · omega
  · omega
  · have := length_dropWhile_name r
    omega
  · omega
  · omega

structure Marker where
  name : String
  start : Nat
  stop : Nat
deriving DecidableEq, Repr

def markersFrom (pos : Nat) : List Piece → List Marker
  | [] => []
  | .char c :: ps => markersFrom (pos + c.utf8Size) ps
  | .marker name :: ps =>
    let stop := pos + Text.size8 (':' :: name)
    ⟨String.ofList name, pos, stop⟩ :: markersFrom stop ps

def scan (sql : String) : List Marker := markersFrom 0 (pieces false sql.toList)

/-- Replaces the markers from number `n` on. -/
def numberFrom (placeholder : Nat → List Char) (n : Nat) : List Piece → List Char
  | [] => []
  | .char c :: ps => c :: numberFrom placeholder n ps
  | .marker _ :: ps => placeholder n ++ numberFrom placeholder (n + 1) ps

/-- The text with each marker replaced by the placeholder of its number. -/
def numberMarkers (placeholder : Nat → List Char) (sql : String) : String :=
  String.ofList (numberFrom placeholder 1 (pieces false sql.toList))

/-! ## Native parameters -/

/-- The user type that a parameter is bound as when nothing else is known of it. -/
def inferTypeId : Value → String
  | .null => "string"
  | .str _ => "string"
  | .int _ => "int"
  | .long _ => "long"
  | .bool _ => "bool"
  | .uuid _ => "uuid"
  | .instant _ => "instant"
  | _ => "json"

def bindsOf (params : Entries Value) : List Marker → Except PlanningError (List Bind)
  | [] => .ok []
  | m :: ms =>
    match params.lookup m.name with
    | none => .error (.missingParam m.name)
    | some v => (bindsOf params ms).map (⟨v, inferTypeId v⟩ :: ·)

/-- One bind for each marker of a text; a parameter used twice is bound twice. -/
def bindsFor (sql : String) (params : Entries Value) : Except PlanningError (List Bind) :=
  bindsOf params (scan sql)

end Polystore.Sql
