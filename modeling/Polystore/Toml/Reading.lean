import Polystore.Toml.Scalar

/-! # TOML from text

Version 1.0 of the format. A document is a list of lines, each blank, a header or an assignment. -/

namespace Polystore.Toml
set_option autoImplicit false

/-! ## Blanks -/

/-- The rest of a line behind a comment, if there is one. -/
def skipComment : List Char → List Char
  | '#' :: r => r.dropWhile isText
  | cs => cs

/-- Ends a line: blanks, a comment, and a newline or the end of the text. -/
def lineEnd? (cs : List Char) : Option (List Char) :=
  match skipComment (skipSpace cs) with
  | [] => some []
  | r => afterNewline? r

def skipLines : Nat → List Char → List Char
  | 0, cs => cs
  | n + 1, cs =>
    match afterNewline? (skipComment (skipSpace cs)) with
    | some r => skipLines n r
    | none => skipComment (skipSpace cs)

def skipAll (cs : List Char) : List Char := skipLines (cs.length + 1) cs

/-! ## Keys -/

def isBareKey (c : Char) : Bool := c.isAlphanum || c == '_' || c == '-'

def simpleKey? (cs : List Char) : Option (String × List Char) :=
  match lineString? cs with
  | some r => some r
  | none =>
    let word := cs.takeWhile isBareKey
    if word.isEmpty then none else some (String.ofList word, cs.dropWhile isBareKey)

/-- A key and the keys behind dots after it. -/
def keys? : Nat → List Char → Option (List String × List Char)
  | 0, _ => none
  | n + 1, cs => do
    let (k, r) ← simpleKey? (skipSpace cs)
    match skipSpace r with
    | '.' :: r => (keys? n r).map fun (ks, r) => (k :: ks, r)
    | r => some ([k], r)

def key? (cs : List Char) : Option (List String × List Char) := keys? (cs.length + 1) cs

/-! ## Values -/

mutual
def value? : Nat → List Char → Option (Toml × List Char)
  | 0, _ => none
  | n + 1, cs =>
    match cs with
    | '"' :: _ => (string? cs).map fun (s, r) => (.str s, r)
    | '\'' :: _ => (string? cs).map fun (s, r) => (.str s, r)
    | '[' :: r => (items? n (skipAll r)).map fun (vs, r) => (.list vs, r)
    | '\x7b' :: r => (inlineTable? n (skipSpace r)).map fun (ms, r) => (.table (trees ms), r)
    | _ =>
      let (word, r) := splitWord cs
      (word? word).map fun v => (v, r)
/-- The rest of a list; a comma may stand behind its last item. -/
def items? : Nat → List Char → Option (List Toml × List Char)
  | 0, _ => none
  | n + 1, cs =>
    match cs with
    | ']' :: r => some ([], r)
    | cs =>
      match value? n cs with
      | none => none
      | some (v, r) =>
        match skipAll r with
        | ',' :: r => (items? n (skipAll r)).map fun (vs, r) => (v :: vs, r)
        | ']' :: r => some ([v], r)
        | _ => none
def inlineTable? : Nat → List Char → Option (Members × List Char)
  | 0, _ => none
  | n + 1, cs =>
    match cs with
    | '\x7d' :: r => some ([], r)
    | cs => assignments? n [] cs
/-- One assignment or more, and the closing brace. -/
def assignments? : Nat → Members → List Char → Option (Members × List Char)
  | 0, _, _ => none
  | n + 1, ms, cs =>
    match key? cs with
    | some (key, '=' :: r) =>
      match value? n (skipSpace r) with
      | none => none
      | some (v, r) =>
        match assign v key ms, skipSpace r with
        | some ms, ',' :: r => assignments? n ms r
        | some ms, '\x7d' :: r => some (ms, r)
        | _, _ => none
    | _ => none
end

/-! ## Documents -/

/-- A document that is being read: what it holds so far, and the header that the next lines belong
to. -/
structure Draft where
  members : Members
  header : List String

def header? (cs : List Char) (d : Draft) : Option (Draft × List Char) := do
  let (key, r) ← key? cs
  match r with
  | ']' :: r =>
    let ms ← atHeader openTable key d.members
    let r ← lineEnd? r
    some (⟨ms, key⟩, r)
  | _ => none

def itemHeader? (cs : List Char) (d : Draft) : Option (Draft × List Char) := do
  let (key, r) ← key? cs
  match r with
  | ']' :: ']' :: r =>
    let ms ← atHeader openItem key d.members
    let r ← lineEnd? r
    some (⟨ms, key⟩, r)
  | _ => none

def assignment? (cs : List Char) (d : Draft) : Option (Draft × List Char) := do
  let (key, r) ← key? cs
  match r with
  | '=' :: r =>
    let r := skipSpace r
    let (v, r) ← value? (2 * r.length + 2) r
    let ms ← assignAt v key d.header d.members
    let r ← lineEnd? r
    some (⟨ms, d.header⟩, r)
  | _ => none

/-- Reads the next line that holds something. -/
def line? (cs : List Char) (d : Draft) : Option (Draft × List Char) :=
  match cs with
  | '[' :: '[' :: r => itemHeader? r d
  | '[' :: r => header? r d
  | cs => assignment? cs d

def document? : Nat → List Char → Draft → Option Draft
  | 0, _, _ => none
  | n + 1, cs, d =>
    match skipAll cs with
    | [] => some d
    | cs => (line? cs d).bind fun (d, r) => document? n r d

/-- A mark for the order of bytes at the start is skipped. -/
def parse? (s : String) : Option (List (String × Toml)) :=
  let cs := match s.toList with
    | c :: r => if c.toNat == 0xfeff then r else c :: r
    | [] => []
  (document? (cs.length + 1) cs ⟨[], []⟩).map fun d => trees d.members

end Polystore.Toml
