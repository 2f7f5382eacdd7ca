import Polystore.Text.Basic

/-! # Universally unique identifiers

Thirty-two hexadecimal digits. They are written in lower case with hyphens, and read with or
without hyphens, in braces or as a URN, in any letter case. -/

namespace Polystore
set_option autoImplicit false

structure Uuid where
  digits : List (Fin 16)
  length_eq : digits.length = 32
deriving DecidableEq

namespace Uuid

/-! ## Digits -/

def digitChar (d : Fin 16) : Char :=
  if d.val < 10 then Char.ofNat (48 + d.val) else Char.ofNat (87 + d.val)

def digit? (c : Char) : Option (Fin 16) :=
  let n := c.toNat
  if 48 ≤ n && n ≤ 57 then some (Fin.ofNat 16 (n - 48))
  else if 97 ≤ n && n ≤ 102 then some (Fin.ofNat 16 (n - 87))
  else if 65 ≤ n && n ≤ 70 then some (Fin.ofNat 16 (n - 55))
  else none

theorem digit?_digitChar (d : Fin 16) : digit? (digitChar d) = some d := by
  revert d; decide

/-! ## Text -/

def groups : List Nat := [8, 4, 4, 4, 12]

def hyphenate : List Nat → List Char → List Char
  | [], cs => cs
  | [_], cs => cs
  | n :: ns, cs => cs.take n ++ '-' :: hyphenate ns (cs.drop n)

def text (u : Uuid) : String := String.ofList (hyphenate groups (u.digits.map digitChar))

/-- Takes the hyphens out again; each must stand at the end of its group. -/
def unhyphenate? : List Nat → List Char → Option (List Char)
  | [], cs => some cs
  | [_], cs => some cs
  | n :: ns, cs =>
    match cs.drop n with
    | '-' :: r => (unhyphenate? ns r).map (cs.take n ++ ·)
    | _ => none

def ofDigits? (cs : List Char) : Option Uuid :=
  match cs.mapM digit? with
  | some ds => if h : ds.length = 32 then some ⟨ds, h⟩ else none
  | none => none

def ofHyphenated? (cs : List Char) : Option Uuid := (unhyphenate? groups cs).bind ofDigits?

def inBraces? : List Char → Option (List Char)
  | '\x7b' :: r => ['\x7d'].isSuffixOf? r
  | _ => none

def ofChars? (cs : List Char) : Option Uuid :=
  if cs.length == 32 then ofDigits? cs
  else match inBraces? cs, "urn:uuid:".toList.isPrefixOf? cs with
    | some r, _ => ofHyphenated? r
    | none, some r => ofHyphenated? r
    | none, none => ofHyphenated? cs

def ofText? (s : String) : Option Uuid := ofChars? s.toList

end Uuid
end Polystore
