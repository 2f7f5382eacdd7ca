import Polystore.Json.Basic
import Polystore.Number.Reading

/-! # JSON from text

`parseRaw?` reads a whole text and keeps repeated keys; `parse?` merges them and refuses numbers
beyond the doubles and trees more than 127 levels deep. -/

namespace Polystore.Json
set_option autoImplicit false

def isSpace (c : Char) : Bool := c == ' ' || c == '\n' || c == '\r' || c == '\t'

def skipSpace (cs : List Char) : List Char := cs.dropWhile isSpace

/-! ## Strings -/

def hexValue? (c : Char) : Option Nat :=
  let n := c.toNat
  if 48 ≤ n && n ≤ 57 then some (n - 48)
  else if 97 ≤ n && n ≤ 102 then some (n - 87)
  else if 65 ≤ n && n ≤ 70 then some (n - 55)
  else none

def hex4? : List Char → Option (Nat × List Char)
  | a :: b :: c :: d :: r => do
    let a ← hexValue? a
    let b ← hexValue? b
    let c ← hexValue? c
    let d ← hexValue? d
    some (((a * 16 + b) * 16 + c) * 16 + d, r)
  | _ => none

/-- The character of an escape with four digits, or with twice four for a surrogate pair. -/
def unicode? (cs : List Char) : Option (Char × List Char) := do
  let (hi, r) ← hex4? cs
  if hi < 0xd800 || 0xe000 ≤ hi then some (Char.ofNat hi, r)
  else if 0xdc00 ≤ hi then none
  else match r with
    | '\\' :: 'u' :: r =>
      let (lo, r) ← hex4? r
      if 0xdc00 ≤ lo && lo < 0xe000 then
        some (Char.ofNat (0x10000 + (hi - 0xd800) * 1024 + (lo - 0xdc00)), r)
      else none
    | _ => none

def simpleEscape? (c : Char) : Option Char :=
  match c with
  | '"' => some '"'
  | '\\' => some '\\'
  | '/' => some '/'
  | 'b' => some (Char.ofNat 8)
  | 'f' => some (Char.ofNat 12)
  | 'n' => some '\n'
  | 'r' => some '\r'
  | 't' => some '\t'
  | _ => none

/-- The rest of a string behind its opening quote. -/
def string? : Nat → List Char → Option (List Char × List Char)
  | 0, _ => none
  | _ + 1, [] => none
  | n + 1, c :: r =>
    if c == '"' then some ([], r)
    else if c == '\\' then
      match r with
      | 'u' :: r => do
        let (c, r) ← unicode? r
        let (s, r) ← string? n r
        some (c :: s, r)
      | e :: r => do
        let c ← simpleEscape? e
        let (s, r) ← string? n r
        some (c :: s, r)
      | [] => none
    else if c.toNat < 32 then none
    else do
      let (s, r) ← string? n r
      some (c :: s, r)

/-! ## Numbers -/

/-- The leading digits that still fit an unsigned 64-bit word, and how many follow them. -/
def significand : Nat → List Char → Nat × Nat
  | v, [] => (v, 0)
  | v, c :: r =>
    let w := 10 * v + (c.toNat - 48)
    if w < UInt64.size then significand w r else (v, r.length + 1)

/-- A significand times a power of ten, by double arithmetic: one multiplication or division by a
power of ten, after divisions by 1e308 as long as the exponent is below the table. -/
def scale : Nat → Float → Int → Float
  | 0, f, _ => f
  | fuel + 1, f, e =>
    if e.natAbs ≤ 308 then
      if 0 ≤ e then f * Number.nearest 1 e else f / Number.nearest 1 (-e)
    else if f == 0 then f
    else if 0 ≤ e then Number.infinity
    else scale fuel (f / Number.nearest 1 308) (e + 308)

/-- A number with the digits before and after its point and its power of ten. -/
def floatOf (neg : Bool) (whole frac : List Char) (e : Int) : Float :=
  let (v, dropped) := significand 0 whole
  let (w, unread) := significand v frac
  let exp := (dropped : Int) - ((frac.length - unread : Nat) : Int) + e
  Number.signed neg (scale 4 (Float.ofNat w) exp)

def intOf (neg : Bool) (whole : List Char) : Json :=
  let n := Number.digitsValue whole
  if neg then
    if 0 < n && Number.fits64 (-(n : Int)) then int (-(n : Int)) else float (floatOf true whole [] 0)
  else if n < UInt64.size then int n else float (floatOf false whole [] 0)

def exponent? (cs : List Char) : Option (Int × List Char) :=
  let (neg, r) := Number.splitSign cs
  let ds := r.takeWhile Char.isDigit
  if ds.isEmpty then none
  else
    let n := Number.digitsValue ds
    some (if neg then -(n : Int) else n, r.dropWhile Char.isDigit)

def number? (neg : Bool) (cs : List Char) : Option (Json × List Char) :=
  let whole := cs.takeWhile Char.isDigit
  let rest := cs.dropWhile Char.isDigit
  if whole.isEmpty || (whole.head? == some '0' && 1 < whole.length) then none
  else match rest with
    | '.' :: r =>
      let frac := r.takeWhile Char.isDigit
      let rest := r.dropWhile Char.isDigit
      if frac.isEmpty then none
      else match rest with
        | 'e' :: r => (exponent? r).map fun (e, r) => (float (floatOf neg whole frac e), r)
        | 'E' :: r => (exponent? r).map fun (e, r) => (float (floatOf neg whole frac e), r)
        | r => some (float (floatOf neg whole frac 0), r)
    | 'e' :: r => (exponent? r).map fun (e, r) => (float (floatOf neg whole [] e), r)
    | 'E' :: r => (exponent? r).map fun (e, r) => (float (floatOf neg whole [] e), r)
    | r => some (intOf neg whole, r)

/-! ## Trees -/

mutual
def value? : Nat → List Char → Option (Json × List Char)
  | 0, _ => none
  | n + 1, cs =>
    match skipSpace cs with
    | 'n' :: 'u' :: 'l' :: 'l' :: r => some (null, r)
    | 't' :: 'r' :: 'u' :: 'e' :: r => some (bool true, r)
    | 'f' :: 'a' :: 'l' :: 's' :: 'e' :: r => some (bool false, r)
    | '"' :: r => (string? (r.length + 1) r).map fun (s, r) => (str (String.ofList s), r)
    | '[' :: r =>
      match skipSpace r with
      | ']' :: r => some (arr [], r)
      | r => (items? n r).map fun (js, r) => (arr js, r)
    | '\x7b' :: r =>
      match skipSpace r with
      | '\x7d' :: r => some (obj [], r)
      | r => (members? n r).map fun (ms, r) => (obj ms, r)
    | '-' :: r => number? true r
    | r => number? false r
def items? : Nat → List Char → Option (List Json × List Char)
  | 0, _ => none
  | n + 1, cs =>
    match value? n cs with
    | none => none
    | some (j, r) =>
      match skipSpace r with
      | ',' :: r => (items? n r).map fun (js, r) => (j :: js, r)
      | ']' :: r => some ([j], r)
      | _ => none
def members? : Nat → List Char → Option (List (String × Json) × List Char)
  | 0, _ => none
  | n + 1, cs =>
    match skipSpace cs with
    | '"' :: r =>
      match string? (r.length + 1) r with
      | none => none
      | some (k, r) =>
        match skipSpace r with
        | ':' :: r =>
          match value? n r with
          | none => none
          | some (j, r) =>
            match skipSpace r with
            | ',' :: r => (members? n r).map fun (ms, r) => ((String.ofList k, j) :: ms, r)
            | '\x7d' :: r => some ([(String.ofList k, j)], r)
            | _ => none
        | _ => none
    | _ => none
end

/-- Every step of the reader takes at least one of every two units of fuel from the text. -/
def parseRaw? (s : String) : Option Json :=
  let cs := s.toList
  match value? (2 * cs.length + 2) cs with
  | some (j, r) => if (skipSpace r).isEmpty then some j else none
  | none => none

def maxDepth : Nat := 127

def parse? (s : String) : Option Json :=
  match parseRaw? s with
  | some j => if j.depth ≤ maxDepth && j.isFinite then some j.merge else none
  | none => none

end Polystore.Json
