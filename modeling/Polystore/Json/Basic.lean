import Polystore.Number.Shortest

/-! # JSON trees

Objects keep the order of their members. A whole number that fits 64 bits, signed or not, is an
`int`; every other number is a `float`. `text` writes a tree without blanks. -/

namespace Polystore
set_option autoImplicit false

inductive Json where
  | null
  | bool (b : Bool)
  | int (n : Int)
  | float (d : Float)
  | str (s : String)
  | arr (items : List Json)
  | obj (members : List (String × Json))
deriving Inhabited

namespace Json

/-! ## Access -/

def str? : Json → Option String
  | str s => some s
  | _ => none

def bool? : Json → Option Bool
  | bool b => some b
  | _ => none

/-- The member of an object under a key; the first one, should the key be repeated. -/
def get? (key : String) : Json → Option Json
  | obj ms => ms.lookup key
  | _ => none

/-- Whether the tree is a single value without members. -/
def isScalar : Json → Bool
  | arr _ => false
  | obj _ => false
  | _ => true

mutual
/-- Changes every text value of a tree; keys stay. -/
def mapTexts (f : String → String) : Json → Json
  | str s => str (f s)
  | arr items => arr (mapTextsItems f items)
  | obj members => obj (mapTextsMembers f members)
  | j => j
def mapTextsItems (f : String → String) : List Json → List Json
  | [] => []
  | j :: js => mapTexts f j :: mapTextsItems f js
def mapTextsMembers (f : String → String) : List (String × Json) → List (String × Json)
  | [] => []
  | (k, j) :: ms => (k, mapTexts f j) :: mapTextsMembers f ms
end

/-! ## Equality -/

mutual
/-- Equality of values: objects are compared by key, numbers as numbers of one form. -/
def same : Json → Json → Bool
  | null, null => true
  | bool a, bool b => a == b
  | int a, int b => a == b
  | float a, float b => a == b
  | str a, str b => a == b
  | arr a, arr b => sameItems a b
  | obj a, obj b => a.length == b.length && sameMembers a b
  | _, _ => false
def sameItems : List Json → List Json → Bool
  | [], [] => true
  | a :: as, b :: bs => same a b && sameItems as bs
  | _, _ => false
def sameMembers : List (String × Json) → List (String × Json) → Bool
  | [], _ => true
  | (k, a) :: as, bs =>
    (match bs.lookup k with
      | some b => same a b
      | none => false) && sameMembers as bs
end

/-! ## Shape -/

mutual
/-- The number of arrays and objects around the innermost value. -/
def depth : Json → Nat
  | arr items => depthItems items + 1
  | obj members => depthMembers members + 1
  | _ => 0
def depthItems : List Json → Nat
  | [] => 0
  | j :: js => max (depth j) (depthItems js)
def depthMembers : List (String × Json) → Nat
  | [] => 0
  | (_, j) :: ms => max (depth j) (depthMembers ms)
end

mutual
def isFinite : Json → Bool
  | float d => d.isFinite
  | arr items => finiteItems items
  | obj members => finiteMembers members
  | _ => true
def finiteItems : List Json → Bool
  | [] => true
  | j :: js => isFinite j && finiteItems js
def finiteMembers : List (String × Json) → Bool
  | [] => true
  | (_, j) :: ms => isFinite j && finiteMembers ms
end

/-! ## Repeated keys -/

/-- Gives a key a value: in its place if it is there, else at the end. -/
def put {α : Type} (key : String) (v : α) : List (String × α) → List (String × α)
  | [] => [(key, v)]
  | (k, w) :: r => if k = key then (key, v) :: r else (k, w) :: put key v r

/-- Each key once, in the place of its first member and with the value of its last. -/
def putAll {α : Type} (ms : List (String × α)) : List (String × α) :=
  ms.foldl (fun acc m => put m.1 m.2 acc) []

mutual
/-- Merges the repeated keys of every object. -/
def merge : Json → Json
  | arr items => arr (mergeItems items)
  | obj members => obj (putAll (mergeMembers members))
  | j => j
def mergeItems : List Json → List Json
  | [] => []
  | j :: js => merge j :: mergeItems js
def mergeMembers : List (String × Json) → List (String × Json)
  | [] => []
  | (k, j) :: ms => (k, merge j) :: mergeMembers ms
end

/-! ## Text -/

def hexDigit (n : Nat) : Char := if n < 10 then Char.ofNat (48 + n) else Char.ofNat (87 + n)

/-- Quotes, backslashes and control characters are escaped, all else stands for itself. -/
def escape (c : Char) : List Char :=
  if c == '"' then ['\\', '"']
  else if c == '\\' then ['\\', '\\']
  else if c == '\n' then ['\\', 'n']
  else if c == '\r' then ['\\', 'r']
  else if c == '\t' then ['\\', 't']
  else if c.toNat == 8 then ['\\', 'b']
  else if c.toNat == 12 then ['\\', 'f']
  else if c.toNat < 32 then
    ['\\', 'u', '0', '0', hexDigit (c.toNat / 16), hexDigit (c.toNat % 16)]
  else [c]

def quote (s : String) : List Char := '"' :: s.toList.flatMap escape ++ ['"']

def numberText (d : Float) : List Char :=
  match Double.parts? d with
  | some p => (Double.jsonLayout.finiteText p).toList
  | none => "null".toList

mutual
def chars : Json → List Char
  | null => "null".toList
  | bool true => "true".toList
  | bool false => "false".toList
  | int n => Double.intText n
  | float d => numberText d
  | str s => quote s
  | arr items => '[' :: charsItems items
  | obj members => '\x7b' :: charsMembers members
def charsItems : List Json → List Char
  | [] => [']']
  | [j] => chars j ++ [']']
  | j :: js => chars j ++ ',' :: charsItems js
def charsMembers : List (String × Json) → List Char
  | [] => ['\x7d']
  | [(k, j)] => quote k ++ ':' :: chars j ++ ['\x7d']
  | (k, j) :: ms => quote k ++ ':' :: chars j ++ ',' :: charsMembers ms
end

def text (j : Json) : String := String.ofList (chars j)

end Json
end Polystore
