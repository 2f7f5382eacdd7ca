import Polystore.Number.Reading

/-! # Instants

Points of time in UTC with nanoseconds, their RFC 3339 text, and the civil calendar. -/

namespace Polystore
set_option autoImplicit false

/-- Seconds since 1970 and the nanoseconds within the second; a leap second is the second before
it with a thousand million nanoseconds more. -/
structure Instant where
  secs : Int
  nanos : Nat
deriving DecidableEq

namespace Instant

/-! ## Calendar -/

def isLeapYear (y : Int) : Bool := (y % 4 == 0 && y % 100 != 0) || y % 400 == 0

def daysInMonth (y : Int) (m : Nat) : Nat :=
  if m == 2 then (if isLeapYear y then 29 else 28)
  else if m == 4 || m == 6 || m == 9 || m == 11 then 30 else 31

/-- Days since 1970-01-01, counted in eras of 400 years that start in March. -/
def daysOfCivil (y : Int) (m d : Nat) : Int :=
  let y := if m ≤ 2 then y - 1 else y
  let era := Int.fdiv y 400
  let yoe := y - era * 400
  let shifted : Int := if m > 2 then (m : Int) - 3 else (m : Int) + 9
  let doy := (153 * shifted + 2) / 5 + (d : Int) - 1
  let doe := yoe * 365 + yoe / 4 - yoe / 100 + doy
  era * 146097 + doe - 719468

def civilOfDays (days : Int) : Int × Nat × Nat :=
  let z := days + 719468
  let era := Int.fdiv z 146097
  let doe := z - era * 146097
  let yoe := (doe - doe / 1460 + doe / 36524 - doe / 146096) / 365
  let doy := doe - (365 * yoe + yoe / 4 - yoe / 100)
  let mp := (5 * doy + 2) / 153
  let d := doy - (153 * mp + 2) / 5 + 1
  let m := if mp < 10 then mp + 3 else mp - 9
  let y := yoe + era * 400 + (if m ≤ 2 then 1 else 0)
  (y, m.toNat, d.toNat)

/-! ## Writing -/

def padded (width n : Nat) : List Char :=
  let ds := Nat.toDigits 10 n
  List.replicate (width - ds.length) '0' ++ ds

def yearText (y : Int) : List Char :=
  if 0 ≤ y && y ≤ 9999 then padded 4 y.toNat
  else (if y < 0 then '-' else '+') :: padded 4 y.natAbs

/-- The fraction in as few groups of three digits as it needs. -/
def fractionText (nanos : Nat) : List Char :=
  if nanos == 0 then []
  else if nanos % 1000000 == 0 then '.' :: padded 3 (nanos / 1000000)
  else if nanos % 1000 == 0 then '.' :: padded 6 (nanos / 1000)
  else '.' :: padded 9 nanos

def text (t : Instant) : String :=
  let days := Int.fdiv t.secs 86400
  let sod := (t.secs - days * 86400).toNat
  let (y, m, d) := civilOfDays days
  let leap := 1000000000 ≤ t.nanos
  let sec := sod % 60 + (if leap then 1 else 0)
  let nanos := if leap then t.nanos - 1000000000 else t.nanos
  String.ofList (yearText y ++ '-' :: padded 2 m ++ '-' :: padded 2 d ++
    'T' :: padded 2 (sod / 3600) ++ ':' :: padded 2 (sod / 60 % 60) ++ ':' :: padded 2 sec ++
    fractionText nanos ++ ['Z'])

/-! ## Reading -/

def number? (n : Nat) (cs : List Char) : Option (Nat × List Char) :=
  (Number.natOfChars? (cs.take n)).bind fun v =>
    if cs.length < n then none else some (v, cs.drop n)

def sep? (ok : Char → Bool) : List Char → Option (List Char)
  | c :: r => if ok c then some r else none
  | [] => none

/-- The first nine digits of a fraction count; the others are read over. -/
def fraction? : List Char → Option (Nat × List Char)
  | '.' :: r =>
    let ds := r.takeWhile Char.isDigit
    if ds.isEmpty then none
    else
      let kept := ds.take 9
      some (Number.digitsValue kept * Nat.pow 10 (9 - kept.length), r.dropWhile Char.isDigit)
  | r => some (0, r)

/-- The offset from UTC in seconds, at the end of the text. -/
def offset? : List Char → Option Int
  | ['Z'] => some 0
  | ['z'] => some 0
  | c :: r =>
    if c == '+' || c == '-' || c == '−' then do
      let (h, r) ← number? 2 r
      let r ← sep? (· == ':') r
      let (m, r) ← number? 2 r
      if r.isEmpty && m ≤ 59 && h < 24 then
        let s : Int := h * 3600 + m * 60
        some (if c == '+' then s else -s)
      else none
    else none
  | [] => none

def ofChars? (cs : List Char) : Option Instant := do
  let (y, r) ← number? 4 cs
  let r ← sep? (· == '-') r
  let (mo, r) ← number? 2 r
  let r ← sep? (· == '-') r
  let (d, r) ← number? 2 r
  let r ← sep? (fun c => c == 'T' || c == 't' || c == ' ') r
  let (h, r) ← number? 2 r
  let r ← sep? (· == ':') r
  let (mi, r) ← number? 2 r
  let r ← sep? (· == ':') r
  let (s, r) ← number? 2 r
  let (nanos, r) ← fraction? r
  let off ← offset? r
  if 1 ≤ mo && mo ≤ 12 && 1 ≤ d && d ≤ daysInMonth y mo && h < 24 && mi < 60 && s ≤ 60 then
    let leap := s == 60
    let clock : Int := h * 3600 + mi * 60 + (if leap then 59 else s : Nat)
    some ⟨daysOfCivil y mo d * 86400 + clock - off, nanos + if leap then 1000000000 else 0⟩
  else none

def ofText? (s : String) : Option Instant := ofChars? s.toList

/-! ## Epoch milliseconds -/

/-- Milliseconds since 1970, within the years that the calendar covers. -/
def ofMillis? (ms : Int) : Option Instant :=
  if -8334601228800000 ≤ ms && ms ≤ 8210266876799999 then
    let secs := Int.fdiv ms 1000
    some ⟨secs, (ms - secs * 1000).toNat * 1000000⟩
  else none

end Instant
end Polystore
