import Polystore.Text.Classes

/-! # Text operations

Trimming, cutting and splitting. Everything is stated on character lists, with thin `String` forms
on top. Blank is Unicode white space; case folding is ASCII unless `lower` is named.
-/

namespace Polystore.Text
set_option autoImplicit false

/-! ## Trimming -/

def trimStartChars (cs : List Char) : List Char := cs.dropWhile isBlank

def trimEndChars (cs : List Char) : List Char := (cs.reverse.dropWhile isBlank).reverse

def trimChars (cs : List Char) : List Char := trimEndChars (trimStartChars cs)

def trim (s : String) : String := String.ofList (trimChars s.toList)

def trimStart (s : String) : String := String.ofList (trimStartChars s.toList)

def isBlankText (s : String) : Bool := s.toList.all isBlank

def nonBlank? (s : String) : Option String :=
  let t := trim s
  if t.isEmpty then none else some t

/-! ## ASCII case -/

def lowerAscii (s : String) : String := String.ofList (s.toList.map Char.toLower)

def upperAscii (s : String) : String := String.ofList (s.toList.map Char.toUpper)

def sameIgnoringCase (a b : String) : Bool := lowerAscii a == lowerAscii b

/-! ## Cutting -/

/-- What follows `lead` at the start of the text. -/
def after? (lead s : String) : Option String :=
  (lead.toList.isPrefixOf? s.toList).map String.ofList

/-- What stands before `tail` at the end of the text. -/
def before? (tail s : String) : Option String :=
  (tail.toList.isSuffixOf? s.toList).map String.ofList

def startsWith (lead s : String) : Bool := lead.toList.isPrefixOf s.toList

/-! ## Splitting -/

/-- The pieces between the separators; always at least one. -/
def splitChars (sep : Char) : List Char → List (List Char)
  | [] => [[]]
  | c :: r =>
    if c = sep then [] :: splitChars sep r
    else match splitChars sep r with
      | [] => [[c]]
      | p :: ps => (c :: p) :: ps

def split (sep : Char) (s : String) : List String :=
  (splitChars sep s.toList).map String.ofList

/-- The text before the first separator and the text after it. -/
def splitOnce? (sep : Char) (s : String) : Option (String × String) :=
  let cs := s.toList
  match cs.dropWhile (· != sep) with
  | [] => none
  | _ :: r => some (String.ofList (cs.takeWhile (· != sep)), String.ofList r)

/-- The text before the last separator and the text after it. -/
def splitLast? (sep : Char) (s : String) : Option (String × String) :=
  let cs := s.toList.reverse
  match cs.dropWhile (· != sep) with
  | [] => none
  | _ :: r => some (String.ofList r.reverse, String.ofList (cs.takeWhile (· != sep)).reverse)

/-- The maximal runs of characters that are not blank. -/
def wordsFrom (word : List Char) : List Char → List (List Char)
  | [] => if word.isEmpty then [] else [word.reverse]
  | c :: r =>
    if isBlank c then
      if word.isEmpty then wordsFrom [] r else word.reverse :: wordsFrom [] r
    else wordsFrom (c :: word) r

def words (s : String) : List String := (wordsFrom [] s.toList).map String.ofList

def containsChars (part : List Char) : List Char → Bool
  | [] => part.isEmpty
  | c :: r => part.isPrefixOf (c :: r) || containsChars part r

def contains (part s : String) : Bool := containsChars part.toList s.toList

/-- Every occurrence of `part`, from the left and without overlap, replaced by `new`. -/
def replaceChars (part new : List Char) : Nat → List Char → List Char
  | 0, cs => cs
  | _ + 1, [] => []
  | n + 1, c :: r =>
    match part.isPrefixOf? (c :: r) with
    | some rest => new ++ replaceChars part new n rest
    | none => c :: replaceChars part new n r

def replace (part new s : String) : String :=
  String.ofList (replaceChars part.toList new.toList s.toList.length s.toList)

/-! ## Size -/

/-- The length in UTF-8 bytes. -/
def size8 : List Char → Nat
  | [] => 0
  | c :: r => c.utf8Size + size8 r

theorem splitChars_ne_nil (sep : Char) (cs : List Char) : splitChars sep cs ≠ [] := by
  cases cs with
  | nil => simp [splitChars]
  | cons c r =>
    simp only [splitChars]
    split
    · simp
    · split <;> simp

end Polystore.Text
