/-! # Patterns as regular expressions

In a pattern `%` is any run of characters and `_` any one character. All else stands for itself. -/

namespace Polystore.Documents
set_option autoImplicit false

/-- The characters that mean more than themselves in a regular expression. -/
def regexSpecial : List Char :=
  ['\\', '.', '+', '*', '?', '(', ')', '|', '[', ']', '\x7b', '\x7d', '^', '$', '#', '&', '-', '~']

def escapedChar (c : Char) : List Char := if regexSpecial.contains c then ['\\', c] else [c]

def patternChar (c : Char) : List Char :=
  if c = '%' then ['.', '*'] else if c = '_' then ['.'] else escapedChar c

/-- The regular expression of the whole of a pattern. -/
def likeRegex (pattern : String) : String :=
  String.ofList (['^'] ++ pattern.toList.flatMap patternChar ++ ['$'])

end Polystore.Documents
