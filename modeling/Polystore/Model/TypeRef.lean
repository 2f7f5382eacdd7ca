import Polystore.Error

/-! # Type references

The type of a field and its textual form: a scalar id, `ref(Entity)`, `value(Entity)`,
`list<T>`, `set<T>`, `array<T>` or `map<K,V>`. -/

namespace Polystore
set_option autoImplicit false

inductive TypeRef where
  | scalar (id : String)
  | ref (entity : String)
  | value (entity : String)
  | list (elem : TypeRef)
  | set (elem : TypeRef)
  | array (elem : TypeRef)
  | map (key value : TypeRef)
deriving DecidableEq, Repr

namespace TypeRef

def isScalar : TypeRef → Bool
  | scalar _ => true
  | _ => false

/-- The id of the user type that values of this type are bound with. -/
def typeId : TypeRef → String
  | scalar id => id
  | ref _ => "ref"
  | value _ => "json"
  | list e => "list<" ++ e.typeId ++ ">"
  | set e => "set<" ++ e.typeId ++ ">"
  | array e => "array<" ++ e.typeId ++ ">"
  | map k v => "map<" ++ k.typeId ++ "," ++ v.typeId ++ ">"

def text : TypeRef → String
  | scalar id => id
  | ref e => "ref(" ++ e ++ ")"
  | value e => "value(" ++ e ++ ")"
  | list e => "list<" ++ e.text ++ ">"
  | set e => "set<" ++ e.text ++ ">"
  | array e => "array<" ++ e.text ++ ">"
  | map k v => "map<" ++ k.text ++ "," ++ v.text ++ ">"

/-! ## Reading -/

/-- What follows a word at the start of the text, in any letter case. -/
def afterWord? : List Char → List Char → Option (List Char)
  | [], cs => some cs
  | _ :: _, [] => none
  | w :: ws, c :: cs => if c.toLower = w then afterWord? ws cs else none

/-- What stands before a closing character at the end of the text. -/
def beforeClose? (close : Char) : List Char → Option (List Char)
  | [] => none
  | [c] => if c = close then some [] else none
  | c :: cs => (beforeClose? close cs).map (c :: ·)

/-- The text between the brackets that follow a word, blanks before the first one aside. -/
def argument? (word : List Char) (op close : Char) (cs : List Char) : Option (List Char) :=
  match afterWord? word cs with
  | none => none
  | some r =>
    match Text.trimStartChars r with
    | [] => none
    | c :: r => if c = op then beforeClose? close r else none

/-- The texts before and after the first comma outside angle brackets. -/
def splitComma? (depth : Int) : List Char → Option (List Char × List Char)
  | [] => none
  | c :: r =>
    if c = ',' ∧ depth = 0 then some ([], r)
    else
      let d := if c = '<' then depth + 1 else if c = '>' then depth - 1 else depth
      (splitComma? d r).map fun (a, b) => (c :: a, b)

theorem afterWord?_length {ws cs r : List Char} (h : afterWord? ws cs = some r) :
    r.length + ws.length = cs.length := by
  induction ws generalizing cs with
  | nil => simp [afterWord?] at h; simp [h]
  | cons w ws ih =>
    cases cs with
    | nil => simp [afterWord?] at h
    | cons c cs =>
      simp only [afterWord?] at h
      split at h
      · have := ih h; simp only [List.length_cons]; omega
      · simp at h

theorem beforeClose?_length {close : Char} {cs r : List Char}
    (h : beforeClose? close cs = some r) : r.length < cs.length := by
  induction cs generalizing r with
  | nil => simp [beforeClose?] at h
  | cons c cs ih =>
    cases cs with
    | nil =>
      simp only [beforeClose?] at h
      split at h
      · simp at h; simp [← h]
      · simp at h
    | cons d ds =>
      simp only [beforeClose?, Option.map_eq_some_iff] at h
      obtain ⟨r', h', rfl⟩ := h
      have := ih h'
      simp only [List.length_cons] at this ⊢; omega

theorem trimStartChars_length (cs : List Char) : (Text.trimStartChars cs).length ≤ cs.length :=
  (List.dropWhile_sublist _).length_le

theorem argument?_length {word : List Char} {op close : Char} {cs r : List Char}
    (h : argument? word op close cs = some r) : r.length < cs.length := by
  simp only [argument?] at h
  split at h
  · simp at h
  · rename_i rest hr
    have hl := afterWord?_length hr
    have ht := trimStartChars_length rest
    split at h
    · simp at h
    · rename_i c tail heq
      split at h
      · have hb := beforeClose?_length h
        rw [heq] at ht
        simp only [List.length_cons] at ht; omega
      · simp at h

theorem splitComma?_length {d : Int} {cs a b : List Char}
    (h : splitComma? d cs = some (a, b)) : a.length < cs.length ∧ b.length < cs.length := by
  induction cs generalizing d a b with
  | nil => simp [splitComma?] at h
  | cons c r ih =>
    simp only [splitComma?] at h
    split at h
    · simp at h; obtain ⟨rfl, rfl⟩ := h; simp
    · simp only [Option.map_eq_some_iff] at h
      obtain ⟨⟨a', b'⟩, h', he⟩ := h
      simp only [Prod.mk.injEq] at he
      obtain ⟨rfl, rfl⟩ := he
      have := ih h'
      simp only [List.length_cons]; omega

theorem trimChars_length (cs : List Char) : (Text.trimChars cs).length ≤ cs.length := by
  have h1 := trimStartChars_length cs
  have h2 : (Text.trimEndChars (Text.trimStartChars cs)).length ≤
      (Text.trimStartChars cs).length := by
    simp only [Text.trimEndChars, List.length_reverse]
    exact Nat.le_trans (List.dropWhile_sublist _).length_le (by simp)
  exact Nat.le_trans h2 h1

/-- The generic forms with one argument. -/
inductive Wrapper where
  | list | set | array
deriving DecidableEq, Repr

def Wrapper.wrap : Wrapper → TypeRef → TypeRef
  | list => TypeRef.list
  | set => TypeRef.set
  | array => TypeRef.array

/-- What a trimmed text is, one level deep; the parts are still to be read. -/
inductive Shape (n : Nat) where
  | ref (inner : List Char)
  | value (inner : List Char)
  | wrapped (w : Wrapper) (inner : List Char) (h : inner.length < n)
  | map (parts : Option { p : List Char × List Char // p.1.length < n ∧ p.2.length < n })
  | plain

def shape (cs : List Char) : Shape cs.length :=
  match argument? "ref".toList '(' ')' cs, argument? "value".toList '(' ')' cs with
  | some r, _ => .ref r
  | none, some r => .value r
  | none, none =>
    match h : argument? "list".toList '<' '>' cs with
    | some r => .wrapped .list r (argument?_length h)
    | none =>
      match h : argument? "set".toList '<' '>' cs with
      | some r => .wrapped .set r (argument?_length h)
      | none =>
        match h : argument? "array".toList '<' '>' cs with
        | some r => .wrapped .array r (argument?_length h)
        | none =>
          match h : argument? "map".toList '<' '>' cs with
          | some r =>
            match h' : splitComma? 0 r with
            | some (k, v) =>
              .map (some ⟨(k, v), by
                have h1 := argument?_length h
                have h2 := splitComma?_length h'
                simp only; omega⟩)
            | none => .map none
          | none => .plain

def isReserved (c : Char) : Bool := c == '<' || c == '>' || c == '(' || c == ')' || c == ','

/-- A scalar id is lower-cased unless it has a dot. -/
def scalarId (cs : List Char) : String :=
  if cs.contains '.' then String.ofList cs else Text.lower (String.ofList cs)

def invalid (cs : List Char) (reason : String) : ModelError :=
  .invalidTypeRef (String.ofList cs) reason

def entityName (cs inner : List Char) (mk : String → TypeRef) : Except ModelError TypeRef :=
  match Text.nonBlank? (String.ofList inner) with
  | some e => .ok (mk e)
  | none => .error (invalid cs "missing entity")

def parseChars (cs : List Char) : Except ModelError TypeRef :=
  let s := Text.trimChars cs
  if s.isEmpty then .error (invalid cs "empty type")
  else match shape s with
    | .ref inner => entityName cs inner ref
    | .value inner => entityName cs inner value
    | .wrapped w inner h =>
      have : inner.length < cs.length := Nat.lt_of_lt_of_le h (trimChars_length cs)
      (parseChars inner).map w.wrap
    | .map none => .error (invalid cs "map needs <K,V>")
    | .map (some ⟨(k, v), h⟩) =>
      have := Nat.lt_of_lt_of_le h.1 (trimChars_length cs)
      have := Nat.lt_of_lt_of_le h.2 (trimChars_length cs)
      match parseChars k with
      | .error e => .error e
      | .ok k => (parseChars v).map (map k)
    | .plain =>
      if s.any isReserved then .error (invalid cs "malformed type")
      else .ok (scalar (scalarId s))
termination_by cs.length

def parse (text : String) : Except ModelError TypeRef := parseChars text.toList

end TypeRef
end Polystore
