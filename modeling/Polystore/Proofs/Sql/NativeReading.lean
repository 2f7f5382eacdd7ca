import Polystore.Proofs.Sql.Reading

/-! # Reading the conditions of native texts

A reader of conditions that are written by hand. The text is cut into words, outside quotes, and
the words into lexemes: whatever stands between connectives and the parentheses of groups is one
test. The condition of a text is what stands behind its WHERE, the one outside of parentheses.
Beside it stands the syntax of conditions, by precedence: the words of a condition are read as what
its syntax says. -/

namespace Polystore.Sql.Native
set_option autoImplicit false

/-! ## Words -/

inductive Word where
  | lparen | rparen | and | or | not | between | where
  /-- A keyword that begins a clause behind a condition. -/
  | clause (cs : List Char)
  | text (cs : List Char)
deriving DecidableEq

def clauseWords : List String :=
  ["order", "group", "having", "window", "limit", "offset", "fetch", "for", "union", "intersect",
    "except"]

/-- A run of characters as a word; keywords may be written in any case. -/
def Word.of (cs : List Char) : Word :=
  let lowered := Text.lowerAscii (String.ofList cs)
  if lowered = "and" then .and
  else if lowered = "or" then .or
  else if lowered = "not" then .not
  else if lowered = "between" then .between
  else if lowered = "where" then .where
  else if lowered ∈ clauseWords then .clause cs
  else .text cs

/-- The word that has been read in reverse. -/
def flush (word : List Char) : List Word := if word.isEmpty then [] else [.of word.reverse]

def beginsComment (c : Char) (r : List Char) : Bool :=
  (c == '-' && r.head? == some '-') || (c == '/' && r.head? == some '*')

/-- Cuts text into words, inside a quote or not and behind the reversed beginning of a word. Quotes
that are not closed and comments are not read. -/
def cut : Option Char → List Char → List Char → Option (List Word)
  | none, word, [] => some (flush word)
  | some _, _, [] => none
  | some q, word, c :: r => cut (if c = q then none else some q) (c :: word) r
  | none, word, c :: r =>
    if c = '\'' ∨ c = '"' then cut (some c) (c :: word) r
    else if beginsComment c r then none
    else if Text.isBlank c then (cut none [] r).map (flush word ++ ·)
    else if c = '(' then (cut none [] r).map (flush word ++ .lparen :: ·)
    else if c = ')' then (cut none [] r).map (flush word ++ .rparen :: ·)
    else cut none (c :: word) r

def words? (s : String) : Option (List Word) := cut none [] s.toList

/-! ## The condition of a text -/

/-- A semicolon ends the statement it stands in. -/
def Word.endsStatement : Word → Bool
  | .text cs => cs.contains ';'
  | _ => false

/-- The words behind the WHERE that stands outside of parentheses, of which `n` are open, if there
is such a WHERE. Words are not read where another clause stands in front of it, or where parentheses
do not match. -/
def behindWhere : Nat → List Word → Option (Option (List Word))
  | 0, [] => some none
  | _ + 1, [] => none
  | 0, .where :: ws => some (some ws)
  | 0, .clause _ :: _ => none
  | 0, .rparen :: _ => none
  | n + 1, .rparen :: ws => behindWhere n ws
  | n, .lparen :: ws => behindWhere (n + 1) ws
  | n, _ :: ws => behindWhere n ws

/-- The words of the condition that a text has of its own, if it has one. -/
def ownWords? (text : String) : Option (Option (List Word)) :=
  (words? text).bind fun ws => if ws.any Word.endsStatement then none else behindWhere 0 ws

/-! ## Lexemes -/

/-- How deep in parentheses a test has been read, and whether the AND of a BETWEEN is still due. -/
abbrev Depth := Nat × Bool

/-- What a word of a test leads to; none if the word stands behind the test. -/
def advance : Depth → Word → Option Depth
  | (n, due), .lparen => some (n + 1, due)
  | (0, _), .rparen => none
  | (n + 1, due), .rparen => some (n, due)
  | (0, due), .and => if due then some (0, false) else none
  | (0, _), .or => none
  | (0, _), .clause _ => none
  | (0, _), .between => some (0, true)
  | d, _ => some d

/-- What follows the parenthesis that closes the innermost one of `n + 1` open ones. -/
def behindGroup : Nat → List Word → Option (List Word)
  | _, [] => none
  | 0, .rparen :: ws => some ws
  | n + 1, .rparen :: ws => behindGroup n ws
  | n, .lparen :: ws => behindGroup (n + 1) ws
  | n, _ :: ws => behindGroup n ws

/-- Nothing, a connective or a closing parenthesis. -/
def endsOperand : List Word → Bool
  | [] => true
  | .and :: _ | .or :: _ | .rparen :: _ => true
  | _ => false

/-- Whether an open parenthesis is that of a group: nothing but a connective follows the group. -/
def opensGroup (ws : List Word) : Bool := (behindGroup 0 ws).any endsOperand

/-- Where the reader of words stands: in front of an operand, behind one, or in a test. -/
inductive Place where
  | front
  | back
  | within (read : List Word) (d : Depth)

/-- A word behind an operand, with the lexemes that follow in front of an operand and behind one. -/
def connected (w : Word) (front back : List Lexeme) : List Lexeme :=
  match w with
  | .and => .and :: front
  | .or => .or :: front
  | .rparen => .rparen :: back
  | _ => [.unknown]

/-- The lexemes of words, with names for the tests. -/
def lexemesOf (name : List Word → Test) : Place → List Word → List Lexeme
  | .front, [] => []
  | .back, [] => []
  | .within read _, [] => [.test (name read)]
  | .front, w :: ws =>
    if w = .not then .not :: lexemesOf name .front ws
    else if w = .lparen ∧ opensGroup ws then .lparen :: lexemesOf name .front ws
    else match advance (0, false) w with
      | some d => lexemesOf name (.within [w] d) ws
      | none => [.unknown]
  | .back, w :: ws => connected w (lexemesOf name .front ws) (lexemesOf name .back ws)
  | .within read d, w :: ws =>
    match advance d w with
    | some d => lexemesOf name (.within (read ++ [w]) d) ws
    | none => .test (name read) ::
        connected w (lexemesOf name .front ws) (lexemesOf name .back ws)

/-! ## Syntax -/

mutual
/-- A condition as a choice of conjunctions. -/
inductive Choice where
  | one (c : Conjunction)
  | or (d : Choice) (c : Conjunction)
inductive Conjunction where
  | one (f : Factor)
  | and (c : Conjunction) (f : Factor)
inductive Factor where
  | test (ws : List Word)
  | not (f : Factor)
  | group (d : Choice)
end

mutual
def Choice.words : Choice → List Word
  | .one c => c.words
  | .or d c => d.words ++ .or :: c.words
def Conjunction.words : Conjunction → List Word
  | .one f => f.words
  | .and c f => c.words ++ .and :: f.words
def Factor.words : Factor → List Word
  | .test ws => ws
  | .not f => .not :: f.words
  | .group d => .lparen :: d.words ++ [.rparen]
end

section
variable (name : List Word → Test)

mutual
def Choice.expr : Choice → Expr
  | .one c => c.expr
  | .or d c => .or d.expr c.expr
def Conjunction.expr : Conjunction → Expr
  | .one f => f.expr
  | .and c f => .and c.expr f.expr
def Factor.expr : Factor → Expr
  | .test ws => .test (name ws)
  | .not f => .not f.expr
  | .group d => d.expr
end

/-- What stands in front of the last OR. -/
def Choice.earlier? : Choice → Option Expr
  | .one _ => none
  | .or d _ => some (d.expr name)

end

def Choice.last : Choice → Conjunction
  | .one c => c
  | .or _ c => c

/-- The words of a test: they are closed in themselves, begin with no NOT, and are not a group. -/
def isTest (ws : List Word) : Bool :=
  ws.foldlM advance (0, false) = some (0, false) &&
    match ws with
    | [] => false
    | w :: rest => w ≠ .not && !(w = .lparen && opensGroup rest)

mutual
/-- All tests of a condition are words of tests. -/
def Choice.Proper : Choice → Prop
  | .one c => c.Proper
  | .or d c => d.Proper ∧ c.Proper
def Conjunction.Proper : Conjunction → Prop
  | .one f => f.Proper
  | .and c f => c.Proper ∧ f.Proper
def Factor.Proper : Factor → Prop
  | .test ws => isTest ws = true
  | .not f => f.Proper
  | .group d => d.Proper
end

/-! ## Tests are read as tests -/

section
variable {w : Word} {ws r : List Word} {d : Depth} {k : Nat} {due due' : Bool}

theorem behindGroup_word (hl : w ≠ .lparen) (hr : w ≠ .rparen) (n : Nat) (ws : List Word) :
    behindGroup n (w :: ws) = behindGroup n ws := by
  cases w with
  | lparen => exact absurd rfl hl
  | rparen => exact absurd rfl hr
  | _ => cases n <;> rfl

theorem advance_depth (hl : w ≠ .lparen) (hr : w ≠ .rparen) (h : advance (k, due) w = some d) :
    d.1 = k := by
  cases w with
  | lparen => exact absurd rfl hl
  | rparen => exact absurd rfl hr
  | _ => cases k <;> cases due <;> cases h <;> rfl

/-- A word of a test opens and closes parentheses as it does in the group around the test. -/
theorem behindGroup_advance (h : advance (k, due) w = some d) (n : Nat) (ws : List Word) :
    behindGroup (n + k) (w :: ws) = behindGroup (n + d.1) ws := by
  by_cases hl : w = .lparen
  · subst hl
    cases h
    cases k <;> rfl
  by_cases hr : w = .rparen
  · subst hr
    cases k with
    | zero => cases h
    | succ k =>
      cases h
      rfl
  rw [behindGroup_word hl hr, advance_depth hl hr h]

/-- Words that close what they open do not close a group around them. -/
theorem behindGroup_closed (h : ws.foldlM advance (k, due) = some (0, due')) (n : Nat)
    (r : List Word) : behindGroup (n + k) (ws ++ r) = behindGroup n r := by
  induction ws generalizing k due with
  | nil =>
    cases h
    rfl
  | cons w ws ih =>
    rw [List.foldlM_cons] at h
    obtain ⟨d, hw, h⟩ := Option.bind_eq_some_iff.mp h
    rw [List.cons_append, behindGroup_advance hw]
    exact ih h

/-- Words that close a parenthesis before their end go on behind it with the same words. -/
theorem behindGroup_opened (h : ws.foldlM advance (k + 1, due) = some (0, due')) :
    ∃ rest, ∀ r, behindGroup k (ws ++ r) = some (rest ++ r) := by
  induction ws generalizing k due with
  | nil => cases h
  | cons w ws ih =>
    rw [List.foldlM_cons] at h
    obtain ⟨⟨k', due''⟩, hw, h⟩ := Option.bind_eq_some_iff.mp h
    by_cases hl : w = .lparen
    · subst hl
      cases hw
      obtain ⟨rest, hrest⟩ := ih h
      refine ⟨rest, fun r => ?_⟩
      rw [← hrest r]
      cases k <;> rfl
    by_cases hr : w = .rparen
    · subst hr
      cases hw
      cases k with
      | zero => exact ⟨ws, fun r => rfl⟩
      | succ k => exact ih h
    · cases advance_depth hl hr hw
      obtain ⟨rest, hrest⟩ := ih h
      refine ⟨rest, fun r => ?_⟩
      rw [← hrest r, List.cons_append, behindGroup_word hl hr]

theorem endsOperand_cases (h : endsOperand r = true) :
    r = [] ∨ ∃ w ws, r = w :: ws ∧ advance (0, false) w = none := by
  cases r with
  | nil => exact .inl rfl
  | cons w ws =>
    refine .inr ⟨w, ws, rfl, ?_⟩
    cases w with
    | and | or | rparen => rfl
    | _ => cases h

theorem endsOperand_append (h : endsOperand ws = false) (r : List Word) :
    endsOperand (ws ++ r) = false := by
  cases ws with
  | nil => cases h
  | cons w ws =>
    rw [← h]
    cases w <;> rfl

theorem opensGroup_append (h : ws.foldlM advance (1, due) = some (0, due'))
    (hws : opensGroup ws = false) (r : List Word) : opensGroup (ws ++ r) = false := by
  obtain ⟨rest, hrest⟩ := behindGroup_opened h
  have hnil := hrest []
  rw [List.append_nil, List.append_nil] at hnil
  unfold opensGroup at hws ⊢
  rw [hnil] at hws
  rw [hrest r]
  exact endsOperand_append hws r

variable (name : List Word → Test)

theorem lexemesOf_within (h : ws.foldlM advance d = some (0, false)) (hr : endsOperand r = true)
    (read : List Word) : lexemesOf name (.within read d) (ws ++ r) =
      .test (name (read ++ ws)) :: lexemesOf name .back r := by
  induction ws generalizing d read with
  | nil =>
    cases h
    rw [List.nil_append, List.append_nil]
    rcases endsOperand_cases hr with rfl | ⟨w, ws, rfl, hw⟩
    · rfl
    · simp only [lexemesOf, hw]
  | cons w ws ih =>
    rw [List.foldlM_cons] at h
    obtain ⟨d', hw, h⟩ := Option.bind_eq_some_iff.mp h
    rw [List.cons_append, lexemesOf, hw]
    simp only
    rw [ih h, List.append_assoc]
    rfl

/-- The words of a test are read as one test. -/
theorem lexemesOf_test (h : isTest ws = true) (hr : endsOperand r = true) :
    lexemesOf name .front (ws ++ r) = .test (name ws) :: lexemesOf name .back r := by
  obtain ⟨hclosed, hfront⟩ := Bool.and_eq_true_iff.mp h
  cases ws with
  | nil => cases hfront
  | cons w rest =>
    have hclosed := of_decide_eq_true hclosed
    obtain ⟨hnot, hgroup⟩ := Bool.and_eq_true_iff.mp hfront
    rw [List.foldlM_cons] at hclosed
    obtain ⟨d, hw, hclosed⟩ := Option.bind_eq_some_iff.mp hclosed
    have hopens : ¬(w = .lparen ∧ opensGroup (rest ++ r) = true) := by
      rintro ⟨rfl, hopens⟩
      cases hw
      have hclose : opensGroup rest = false := by simpa using hgroup
      rw [opensGroup_append hclosed hclose] at hopens
      cases hopens
    rw [List.cons_append, lexemesOf, if_neg (of_decide_eq_true hnot), if_neg hopens, hw]
    exact lexemesOf_within name hclosed hr [w]

end

/-! ## Conditions are read by precedence -/

mutual
theorem Choice.behindGroup_words (n : Nat) (r : List Word) (d : Choice) (h : d.Proper) :
    behindGroup n (d.words ++ r) = behindGroup n r := by
  match d with
  | .one c => exact c.behindGroup_words n r h
  | .or d c =>
    rw [Choice.words, List.append_assoc, d.behindGroup_words n _ h.1, List.cons_append,
      behindGroup_word (w := .or) nofun nofun, c.behindGroup_words n r h.2]
theorem Conjunction.behindGroup_words (n : Nat) (r : List Word) (c : Conjunction) (h : c.Proper) :
    behindGroup n (c.words ++ r) = behindGroup n r := by
  match c with
  | .one f => exact f.behindGroup_words n r h
  | .and c f =>
    rw [Conjunction.words, List.append_assoc, c.behindGroup_words n _ h.1, List.cons_append,
      behindGroup_word (w := .and) nofun nofun, f.behindGroup_words n r h.2]
theorem Factor.behindGroup_words (n : Nat) (r : List Word) (f : Factor) (h : f.Proper) :
    behindGroup n (f.words ++ r) = behindGroup n r := by
  match f with
  | .test ws =>
    have hclosed := of_decide_eq_true (Bool.and_eq_true_iff.mp h).1
    exact behindGroup_closed hclosed n r
  | .not f =>
    rw [Factor.words, List.cons_append, behindGroup_word (w := .not) nofun nofun,
      f.behindGroup_words n r h]
  | .group d =>
    have hopen : behindGroup n (.lparen :: (d.words ++ (.rparen :: r))) =
        behindGroup (n + 1) (d.words ++ (.rparen :: r)) := by cases n <;> rfl
    rw [Factor.words, List.append_assoc, List.cons_append, List.singleton_append, hopen,
      d.behindGroup_words (n + 1) _ h]
    rfl
end

section
variable {name : List Word → Test}

/-- The parenthesis of a group is that of a group if the group ends its operand. -/
theorem Choice.lexemesOf_group (d : Choice) (h : d.Proper) {r : List Word}
    (hr : endsOperand r = true) : lexemesOf name .front (.lparen :: d.words ++ [.rparen] ++ r) =
      .lparen :: lexemesOf name .front (d.words ++ .rparen :: r) := by
  have hopens : opensGroup (d.words ++ .rparen :: r) = true := by
    rw [opensGroup, d.behindGroup_words 0 _ h]
    exact hr
  rw [List.append_assoc, List.cons_append, List.singleton_append, lexemesOf, if_neg nofun,
    if_pos ⟨rfl, hopens⟩]

theorem value?_choice (d : Choice) :
    (Level.mk (d.earlier? name) (some (d.last.expr name)) 0).value? = some (d.expr name) := by
  cases d <;> rfl

mutual
/-- The words of a choice are read from the beginning of a level: what stands in front of the last
OR is set aside, and the conjunction behind it can be continued. -/
theorem Choice.reads (d : Choice) (h : d.Proper) {r : List Word} (hr : endsOperand r = true)
    (ls : List Lexeme) (outer : List Level) :
    read outer .start false (lexemesOf name .front (d.words ++ r) ++ ls) =
      read outer ⟨d.earlier? name, some (d.last.expr name), 0⟩ true
        (lexemesOf name .back r ++ ls) := by
  match d with
  | .one c => exact c.reads h hr ls outer none
  | .or d c =>
    have hor : endsOperand (.or :: (c.words ++ r)) = true := rfl
    have hback : lexemesOf name .back (.or :: (c.words ++ r)) =
        .or :: lexemesOf name .front (c.words ++ r) := rfl
    rw [Choice.words, List.append_assoc, List.cons_append, d.reads h.1 hor, hback, List.cons_append,
      read, if_pos rfl, Level.alternative, value?_choice]
    exact c.reads h.2 hr ls outer _
theorem Conjunction.reads (c : Conjunction) (h : c.Proper) {r : List Word}
    (hr : endsOperand r = true) (ls : List Lexeme) (outer : List Level) (before : Option Expr) :
    read outer ⟨before, none, 0⟩ false (lexemesOf name .front (c.words ++ r) ++ ls) =
      read outer ⟨before, some (c.expr name), 0⟩ true (lexemesOf name .back r ++ ls) := by
  match c with
  | .one f => exact f.reads h hr ls outer ⟨before, none, 0⟩
  | .and c f =>
    have hand : endsOperand (.and :: (f.words ++ r)) = true := rfl
    have hback : lexemesOf name .back (.and :: (f.words ++ r)) =
        .and :: lexemesOf name .front (f.words ++ r) := rfl
    rw [Conjunction.words, List.append_assoc, List.cons_append, c.reads h.1 hand, hback,
      List.cons_append, read, if_pos rfl]
    exact f.reads h.2 hr ls outer ⟨before, some (c.expr name), 0⟩
theorem Factor.reads (f : Factor) (h : f.Proper) {r : List Word} (hr : endsOperand r = true)
    (ls : List Lexeme) (outer : List Level) (l : Level) :
    read outer l false (lexemesOf name .front (f.words ++ r) ++ ls) =
      read outer (l.operand (f.expr name)) true (lexemesOf name .back r ++ ls) := by
  match f with
  | .test ws =>
    rw [Factor.words, lexemesOf_test name h hr, List.cons_append, read,
      if_neg Bool.false_ne_true]
    rfl
  | .not f =>
    have hnot : lexemesOf name .front (.not :: (f.words ++ r)) =
        .not :: lexemesOf name .front (f.words ++ r) := rfl
    rw [Factor.words, List.cons_append, hnot, List.cons_append, read, if_neg Bool.false_ne_true,
      f.reads h hr]
    rfl
  | .group d =>
    have hclose : endsOperand (.rparen :: r) = true := rfl
    have hback : lexemesOf name .back (.rparen :: r) = .rparen :: lexemesOf name .back r := rfl
    rw [Factor.words, d.lexemesOf_group h hr, List.cons_append, read, if_neg Bool.false_ne_true,
      d.reads h hclose, hback, List.cons_append, read, if_pos rfl, value?_choice]
    rfl
end

end
end Polystore.Sql.Native
