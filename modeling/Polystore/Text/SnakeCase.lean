import Polystore.Text.Basic

/-! # Snake case

Words in lower case joined by underscores: the column a property has when nothing else is said. -/

namespace Polystore.Text
set_option autoImplicit false

def isLowerAt (cs : List Char) (i : Nat) : Bool := isLowercase (cs[i]?.getD 'A')

/-- `whole` is the text, `pos` the byte position of the next character and `start` tells that a
word begins there. A capital, digit or letter without case opens a new word next to a lower-case
letter; the neighbours are looked up at the byte position. -/
def snakeFrom (whole : List Char) (pos : Nat) (start : Bool) : List Char → List Char
  | [] => []
  | c :: r =>
    let next := pos + c.utf8Size
    if !isAlphanumeric c then
      if start then snakeFrom whole next true r else '_' :: snakeFrom whole next true r
    else if !start && c == c.toUpper && (isLowerAt whole (pos + 1) || isLowerAt whole (pos - 1)) then
      '_' :: c.toLower :: snakeFrom whole next false r
    else c.toLower :: snakeFrom whole next false r

/-- Separators at the end are dropped. -/
def snakeCase (s : String) : String :=
  let cs := s.toList
  let kept := (cs.reverse.dropWhile (!isAlphanumeric ·)).reverse
  String.ofList (snakeFrom cs 0 true kept)

end Polystore.Text
