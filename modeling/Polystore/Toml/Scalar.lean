import Polystore.Instant
import Polystore.Json.Reading
import Polystore.Toml.Basic

/-! # TOML scalars

Strings in their four forms, and the words for truth values, numbers, dates and times. -/

namespace Polystore.Toml
set_option autoImplicit false

def isSpace (c : Char) : Bool := c == ' ' || c == '\t'

def skipSpace (cs : List Char) : List Char := cs.dropWhile isSpace

/-- Control characters stand neither in comments nor in strings; the tab is none. -/
def isText (c : Char) : Bool := c == '\t' || (32 ≤ c.toNat && c.toNat != 127)

def afterNewline? : List Char → Option (List Char)
  | '\n' :: r => some r
  | '\r' :: '\n' :: r => some r
  | _ => none

/-! ## Strings -/

def hexNumber? (n : Nat) (cs : List Char) : Option (Nat × List Char) := do
  if cs.length < n then none
  let ds ← (cs.take n).mapM Json.hexValue?
  some (ds.foldl (fun v d => 16 * v + d) 0, cs.drop n)

def codePoint? (n : Nat) (cs : List Char) : Option (Char × List Char) := do
  let (v, r) ← hexNumber? n cs
  if v < 0xd800 || (0xe000 ≤ v && v < 0x110000) then some (Char.ofNat v, r) else none

/-- The character of an escape behind its backslash. -/
def escape? : List Char → Option (Char × List Char)
  | 'b' :: r => some (Char.ofNat 8, r)
  | 't' :: r => some ('\t', r)
  | 'n' :: r => some ('\n', r)
  | 'f' :: r => some (Char.ofNat 12, r)
  | 'r' :: r => some ('\r', r)
  | '"' :: r => some ('"', r)
  | '\\' :: r => some ('\\', r)
  | 'u' :: r => codePoint? 4 r
  | 'U' :: r => codePoint? 8 r
  | _ => none

/-- The rest of a string on one line, behind its opening quote. -/
def basic? : Nat → List Char → Option (List Char × List Char)
  | 0, _ => none
  | _ + 1, [] => none
  | n + 1, c :: r =>
    if c == '"' then some ([], r)
    else if c == '\\' then do
      let (c, r) ← escape? r
      let (s, r) ← basic? n r
      some (c :: s, r)
    else if isText c then (basic? n r).map fun (s, r) => (c :: s, r)
    else none

/-- The rest of a string without escapes, behind its opening quote. -/
def literal? : List Char → Option (List Char × List Char)
  | [] => none
  | c :: r =>
    if c == '\'' then some ([], r)
    else if isText c then (literal? r).map fun (s, r) => (c :: s, r)
    else none

/-- The first newline of a string over several lines does not belong to it. -/
def dropNewline (cs : List Char) : List Char := (afterNewline? cs).getD cs

/-- The quotes that a closing mark of three may follow: up to two belong to the string. -/
def closing (q : Char) (r : List Char) : List Char × List Char :=
  let own := (r.takeWhile (· == q)).take 2
  (own, r.drop own.length)

def isBreak (c : Char) : Bool := isSpace c || c == '\n' || c == '\r'

/-- Behind a backslash at the end of a line, the start of the text on the next line that has any. -/
def continued? (cs : List Char) : Option (List Char) :=
  (afterNewline? (skipSpace cs)).map fun r => r.dropWhile isBreak

/-- The rest of a string over several lines. -/
def lines? (q : Char) : Nat → List Char → Option (List Char × List Char)
  | 0, _ => none
  | _ + 1, [] => none
  | n + 1, c :: r =>
    if [q, q, q].isPrefixOf (c :: r) then some (closing q (r.drop 2))
    else if q == '"' && c == '\\' then
      match continued? r with
      | some r => lines? q n r
      | none => do
        let (c, r) ← escape? r
        let (s, r) ← lines? q n r
        some (c :: s, r)
    else
      match afterNewline? (c :: r) with
      | some r => (lines? q n r).map fun (s, r) => ('\n' :: s, r)
      | none => if isText c then (lines? q n r).map fun (s, r) => (c :: s, r) else none

def lineString? : List Char → Option (String × List Char)
  | '"' :: r => (basic? (r.length + 1) r).map fun (s, r) => (String.ofList s, r)
  | '\'' :: r => (literal? r).map fun (s, r) => (String.ofList s, r)
  | _ => none

def string? : List Char → Option (String × List Char)
  | '"' :: '"' :: '"' :: r =>
    (lines? '"' (r.length + 1) (dropNewline r)).map fun (s, r) => (String.ofList s, r)
  | '\'' :: '\'' :: '\'' :: r =>
    (lines? '\'' (r.length + 1) (dropNewline r)).map fun (s, r) => (String.ofList s, r)
  | cs => lineString? cs

/-! ## Numbers -/

/-- Digits, between which single underscores may stand. -/
def digits? (isDigit : Char → Bool) (cs : List Char) : Option (List Char) :=
  let groups := Text.splitChars '_' cs
  if groups.all fun g => !g.isEmpty && g.all isDigit then some groups.flatten else none

def isDigitOf (base : Nat) (c : Char) : Bool := (Json.hexValue? c).any (· < base)

def basedInt? (base : Nat) (cs : List Char) : Option Int :=
  (digits? (isDigitOf base) cs).map fun ds =>
    ds.foldl (fun n c => base * n + (Json.hexValue? c).getD 0) 0

/-- Decimal digits without a leading zero. -/
def wholeDigits? (cs : List Char) : Option (List Char) :=
  if cs.head? == some '0' && 1 < cs.length then none else digits? Char.isDigit cs

def exponent? (cs : List Char) : Option Int :=
  let (neg, r) := Number.splitSign cs
  (digits? Char.isDigit r).map fun ds =>
    let n : Int := Number.digitsValue ds
    if neg then -n else n

def isExponentMark (c : Char) : Bool := c == 'e' || c == 'E'

/-- A number with a point, an exponent or both. It must not exceed the doubles. -/
def float? (neg : Bool) (cs : List Char) : Option Toml := do
  let mantissa := cs.takeWhile fun c => !isExponentMark c
  let whole ← wholeDigits? (mantissa.takeWhile (· != '.'))
  let frac ← match mantissa.dropWhile (· != '.') with
    | [] => some []
    | _ :: r => digits? Char.isDigit r
  let e ← match cs.dropWhile fun c => !isExponentMark c with
    | [] => some 0
    | _ :: r => exponent? r
  let d := Number.nearest (Number.digitsValue (whole ++ frac)) (e - frac.length)
  if d.isFinite then some (.float (Number.signed neg d)) else none

/-- The integers that a reader of 128 bits, signed or not, takes. -/
def fits128 (n : Int) : Bool :=
  -170141183460469231731687303715884105728 ≤ n && n < 340282366920938463463374607431768211456

def int? (n : Option Int) : Option Toml :=
  n.bind fun n => if fits128 n then some (.int n) else none

def unsigned? (neg : Bool) (cs : List Char) : Option Toml :=
  if cs == ['i', 'n', 'f'] then some (.float (Number.signed neg Number.infinity))
  else if cs == ['n', 'a', 'n'] then some (.float (0.0 / 0.0))
  else if cs.any fun c => c == '.' || isExponentMark c then float? neg cs
  else int? ((wholeDigits? cs).map fun ds =>
    let n : Int := Number.digitsValue ds
    if neg then -n else n)

def number? : List Char → Option Toml
  | '0' :: 'x' :: r => int? (basedInt? 16 r)
  | '0' :: 'o' :: r => int? (basedInt? 8 r)
  | '0' :: 'b' :: r => int? (basedInt? 2 r)
  | '+' :: r => unsigned? false r
  | '-' :: r => unsigned? true r
  | cs => unsigned? false cs

/-! ## Dates and times -/

def afterDay? (cs : List Char) : Option (List Char) := do
  let (y, r) ← Instant.number? 4 cs
  let r ← Instant.sep? (· == '-') r
  let (m, r) ← Instant.number? 2 r
  let r ← Instant.sep? (· == '-') r
  let (d, r) ← Instant.number? 2 r
  if 1 ≤ m && m ≤ 12 && 1 ≤ d && d ≤ Instant.daysInMonth y m then some r else none

def afterClock? (cs : List Char) : Option (List Char) := do
  let (h, r) ← Instant.number? 2 cs
  let r ← Instant.sep? (· == ':') r
  let (m, r) ← Instant.number? 2 r
  let r ← Instant.sep? (· == ':') r
  let (s, r) ← Instant.number? 2 r
  let (_, r) ← Instant.fraction? r
  if h < 24 && m < 60 && s ≤ 60 then some r else none

def isOffset (cs : List Char) : Bool := cs.isEmpty || (Instant.offset? cs).isSome

def isClock (cs : List Char) : Bool := (afterClock? cs).any List.isEmpty

/-- A time behind the mark that separates it from its day, with or without an offset. -/
def isDayTime : List Char → Bool
  | c :: r => (c == 'T' || c == 't' || c == ' ') && (afterClock? r).any isOffset
  | [] => true

def isMoment (cs : List Char) : Bool :=
  match afterDay? cs with
  | some r => isDayTime r
  | none => isClock cs

/-! ## Words -/

def isWordChar (c : Char) : Bool :=
  c.isAlphanum || c == '+' || c == '-' || c == '_' || c == '.' || c == ':'

def word? (cs : List Char) : Option Toml :=
  if cs == "true".toList then some (.bool true)
  else if cs == "false".toList then some (.bool false)
  else if isMoment cs then some (.moment (String.ofList cs))
  else number? cs

/-- The characters of a word. A day and its time may have a blank between them. -/
def splitWord (cs : List Char) : List Char × List Char :=
  let word := cs.takeWhile isWordChar
  let rest := cs.dropWhile isWordChar
  match afterDay? word, rest with
  | some [], ' ' :: r =>
    let time := r.takeWhile isWordChar
    if time.isEmpty then (word, rest) else (word ++ ' ' :: time, r.dropWhile isWordChar)
  | _, _ => (word, rest)

end Polystore.Toml
