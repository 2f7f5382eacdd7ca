import Polystore.Proofs.Truth
import Polystore.Sql.Compile

/-! # Reading conditions back

A reader of WHERE clauses that knows nothing of how they were made. The tokens of a statement are
given the values bound to their markers and cut into lexemes, each test being one of them; the
lexemes are read with the precedence of SQL: parentheses, then NOT, then AND, then OR. -/

namespace Polystore.Sql
set_option autoImplicit false

/-! ## Expressions -/

/-- A test of a row, with the values that are bound into it. -/
inductive Test where
  | isNull (expr : String)
  | isNotNull (expr : String)
  | compare (expr : String) (op : Keyword) (operand : Bind)
  | between (expr : String) (lower upper : Bind)
  | among (expr : String) (members : List Bind)
  | native (expr op : String) (operand : Bind)
  /-- What an operator finds at a text is there. -/
  | present (expr op text : String)

inductive Expr where
  | const (b : Bool)
  | test (t : Test)
  | not (e : Expr)
  | and (a b : Expr)
  | or (a b : Expr)

namespace Expr

/-- The truth value under an assignment of truth values to the tests. -/
def truth (v : Test → Truth) : Expr → Truth
  | const b => .ofBool b
  | test t => v t
  | not e => (truth v e).not
  | and a b => (truth v a).and (truth v b)
  | or a b => (truth v a).or (truth v b)

def negations : Nat → Expr → Expr
  | 0, e => e
  | n + 1, e => negations n (not e)

def joined : Clause → Expr → Expr → Expr
  | .and => and
  | .or => or

/-- Several expressions joined from the left. -/
def chain (c : Clause) (e : Expr) (es : List Expr) : Expr := es.foldl (joined c) e

theorem truth_joined (v : Test → Truth) (c : Clause) (a b : Expr) :
    (joined c a b).truth v = Truth.joined c (a.truth v) (b.truth v) := by cases c <;> rfl

theorem truth_chain (v : Test → Truth) (c : Clause) (e : Expr) (es : List Expr) :
    (chain c e es).truth v = Truth.group c ((e :: es).map (truth v)) := by
  induction es generalizing e with
  | nil => rw [List.map_singleton, Truth.group_singleton]; rfl
  | cons f es ih =>
    have h := ih (joined c e f)
    rw [List.map_cons, Truth.group_cons, truth_joined, Truth.joined_assoc] at h
    rw [List.map_cons, List.map_cons, Truth.group_cons, Truth.group_cons]
    exact h

end Expr

/-! ## Values in place of markers -/

/-- A token, or the value that is bound in the place of a marker. -/
inductive Item where
  | word (t : Token)
  | value (b : Bind)

/-- The tokens with each marker replaced by the next bind. A marker without a bind stays. -/
def fill : Tokens → List Bind → List Item
  | [], _ => []
  | .marker _ :: ts, b :: bs => .value b :: fill ts bs
  | t :: ts, bs => .word t :: fill ts bs

def Item.isBlank : Item → Bool
  | .word (.key .space) => true
  | _ => false

def Token.isMarker : Token → Bool
  | .marker _ => true
  | _ => false

def slots (ts : Tokens) : Nat := ts.countP Token.isMarker

/-- The filled tokens without the blanks. -/
def items (ts : Tokens) (bs : List Bind) : List Item := (fill ts bs).filter (!·.isBlank)

/-! ## Lexemes -/

inductive Lexeme where
  | const (b : Bool)
  | test (t : Test)
  | not | and | or
  | lparen | rparen
  /-- A clause that comes behind the condition. -/
  | stop
  | unknown

/-- The values of a list and what follows its closing parenthesis. -/
def members : List Item → Option (List Bind × List Item)
  | .value b :: .word (.key .rparen) :: r => some ([b], r)
  | .value b :: .word (.key .comma) :: r => (members r).map fun m => (b :: m.1, m.2)
  | _ => none

def comparisons : List Keyword := [.eq, .ne, .gt, .gte, .lt, .lte, .like]

/-- What the keyword behind an expression makes of what follows. -/
def keywordTest (e : String) : Keyword → List Item → Option (List Lexeme × List Item)
  | .isNull, r => some ([.test (.isNull e)], r)
  | .isNotNull, r => some ([.test (.isNotNull e)], r)
  | .between, .value lo :: .word (.key .and) :: .value hi :: r =>
    some ([.test (.between e lo hi)], r)
  | .in, .word (.key .lparen) :: r => (members r).map fun m => ([.test (.among e m.1)], m.2)
  | .not, .word (.key .in) :: .word (.key .lparen) :: r =>
    (members r).map fun m => ([.not, .test (.among e m.1)], m.2)
  | op, .value b :: r => if op ∈ comparisons then some ([.test (.compare e op b)], r) else none
  | _, _ => none

def leading : List Item → Option (List Lexeme × List Item)
  | .word (.litBool b) :: r => some ([.const b], r)
  | .word (.raw e) :: .word (.raw op) :: .value b :: r => some ([.test (.native e op b)], r)
  | .word (.raw e) :: .word (.raw op) :: .word (.litString s) :: .word (.key .isNotNull) :: r =>
    some ([.test (.present e op s)], r)
  | .word (.raw e) :: .word (.key k) :: r => keywordTest e k r
  | _ => none

def connective : Item → Option Lexeme
  | .word (.key .not) => some .not
  | .word (.key .and) => some .and
  | .word (.key .or) => some .or
  | .word (.key .lparen) => some .lparen
  | .word (.key .rparen) => some .rparen
  | _ => none

def isClauseStart : Item → Bool
  | .word (.key .orderBy) | .word (.key .limit) | .word (.key .offset) | .word (.key .fetch) => true
  | _ => false

theorem members_length {r rest : List Item} {bs : List Bind} (h : members r = some (bs, rest)) :
    rest.length < r.length := by
  fun_induction members r generalizing bs rest with
  | case1 b r =>
    simp only [Option.some.injEq, Prod.mk.injEq] at h
    rw [← h.2]
    simp only [List.length_cons]
    omega
  | case2 b r ih =>
    obtain ⟨m, hm, he⟩ := Option.map_eq_some_iff.mp h
    have := ih hm
    rw [← (Prod.mk.inj he).2]
    simp only [List.length_cons]
    omega
  | case3 => simp at h

theorem keywordTest_length {e : String} {k : Keyword} {r rest : List Item} {ls : List Lexeme}
    (h : keywordTest e k r = some (ls, rest)) : rest.length ≤ r.length := by
  -- The list of an IN may be of any length; all other tests take a fixed number of items.
  have membership {q : List Item} {f : List Bind → List Lexeme}
      (hq : (members q).map (fun m => (f m.1, m.2)) = some (ls, rest)) : rest.length < q.length := by
    obtain ⟨m, hm, he⟩ := Option.map_eq_some_iff.mp hq
    rw [← (Prod.mk.inj he).2]
    exact members_length hm
  unfold keywordTest at h
  split at h
  case h_1 | h_2 => exact Nat.le_of_eq (congrArg List.length (Prod.mk.inj (Option.some.inj h)).2.symm)
  case h_4 =>
    have := membership (f := fun bs => [.test (.among e bs)]) h
    simp only [List.length_cons]
    omega
  case h_5 =>
    have := membership (f := fun bs => [.not, .test (.among e bs)]) h
    simp only [List.length_cons]
    omega
  case h_6 =>
    split at h
    · rw [← (Prod.mk.inj (Option.some.inj h)).2]
      simp only [List.length_cons]
      omega
    · exact absurd h (by simp)
  case h_7 => exact absurd h (by simp)
  all_goals
    rw [← (Prod.mk.inj (Option.some.inj h)).2]
    simp only [List.length_cons]
    omega

theorem leading_length {r rest : List Item} {ls : List Lexeme} (h : leading r = some (ls, rest)) :
    rest.length < r.length := by
  unfold leading at h
  split at h
  case h_4 =>
    have := keywordTest_length h
    simp only [List.length_cons]
    omega
  case h_5 => exact absurd h (by simp)
  all_goals
    rw [← (Prod.mk.inj (Option.some.inj h)).2]
    simp only [List.length_cons]
    omega

/-- The lexemes of a condition, up to a clause behind it or to what is no part of a condition. -/
def lexemes : List Item → List Lexeme
  | [] => []
  | i :: r =>
    match connective i with
    | some l => l :: lexemes r
    | none =>
      if isClauseStart i then [.stop]
      else match _h : leading (i :: r) with
        | some (ls, rest) => ls ++ lexemes rest
        | none => [.unknown]
termination_by r => r.length
decreasing_by
  · simp only [List.length_cons]
    omega
  · exact leading_length _h

/-! ## Precedence -/

/-- What has been read inside a pair of parentheses: the disjunction before the last OR, the
conjunction since then, and how many NOT stand before the next operand. -/
structure Level where
  before : Option Expr
  conjunction : Option Expr
  nots : Nat

namespace Level

def start : Level := ⟨none, none, 0⟩

def operand (l : Level) (e : Expr) : Level :=
  let e := Expr.negations l.nots e
  ⟨l.before, some (match l.conjunction with
    | none => e
    | some a => .and a e), 0⟩

def value? (l : Level) : Option Expr :=
  l.conjunction.map fun e =>
    match l.before with
    | none => e
    | some a => .or a e

def alternative (l : Level) : Level := ⟨l.value?, none, 0⟩

end Level

/-- Reads on inside the parentheses that are open, the innermost level apart; `complete` tells that
an operand has just been read. The end of a condition is the end of the lexemes, a further clause,
or a parenthesis that was opened before it. -/
def read (outer : List Level) (l : Level) (complete : Bool) : List Lexeme → Option Expr
  | [] => if complete && outer.isEmpty then l.value? else none
  | .stop :: _ => if complete && outer.isEmpty then l.value? else none
  | .rparen :: ls =>
    if complete then
      match outer with
      | [] => l.value?
      | o :: outer => l.value?.bind fun e => read outer (o.operand e) true ls
    else none
  | .and :: ls => if complete then read outer l false ls else none
  | .or :: ls => if complete then read outer l.alternative false ls else none
  | .lparen :: ls => if complete then none else read (l :: outer) .start false ls
  | .not :: ls => if complete then none else read outer { l with nots := l.nots + 1 } false ls
  | .const b :: ls => if complete then none else read outer (l.operand (.const b)) true ls
  | .test t :: ls => if complete then none else read outer (l.operand (.test t)) true ls
  | .unknown :: _ => none

/-! ## The condition of a statement -/

def Item.isWhere : Item → Bool
  | .word (.key .where) => true
  | _ => false

namespace Statement

/-- The lexemes behind the WHERE of a statement, if it has one. -/
def condition? (st : Statement) : Option (List Lexeme) :=
  match (items st.tokens st.binds).dropWhile (!·.isWhere) with
  | [] => none
  | _ :: r => some (lexemes r)

/-- Whether the statement is about the rows with a certain truth value: read back, its condition has
that value whatever the tests come to, and without such a value it has no condition. -/
def Selects (st : Statement) (meaning : (Test → Truth) → Option Truth) : Prop :=
  match st.condition? with
  | none => ∀ v, meaning v = none
  | some ls => ∃ e, read [] .start false ls = some e ∧ ∀ v, meaning v = some (e.truth v)

end Statement

end Polystore.Sql
