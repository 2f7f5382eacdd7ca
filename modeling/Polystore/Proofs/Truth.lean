import Polystore.Query.Operator

/-! # Three-valued truth

The truth values of tests on rows: a test on a missing value is neither true nor false. Conjunction
is the minimum and disjunction the maximum in the order no, unknown, yes. -/

namespace Polystore
set_option autoImplicit false

inductive Truth where
  | no | unknown | yes
deriving DecidableEq, Repr

namespace Truth

def not : Truth → Truth
  | no => yes
  | unknown => unknown
  | yes => no

def and : Truth → Truth → Truth
  | no, _ => no
  | _, no => no
  | unknown, _ => unknown
  | _, unknown => unknown
  | yes, yes => yes

def or : Truth → Truth → Truth
  | yes, _ => yes
  | _, yes => yes
  | unknown, _ => unknown
  | _, unknown => unknown
  | no, no => no

def ofBool (b : Bool) : Truth := if b then yes else no

def flipIf (negate : Bool) (t : Truth) : Truth := if negate then t.not else t

@[simp] theorem not_not (a : Truth) : a.not.not = a := by cases a <;> rfl

theorem not_and (a b : Truth) : (a.and b).not = a.not.or b.not := by
  cases a <;> cases b <;> rfl

theorem not_or (a b : Truth) : (a.or b).not = a.not.and b.not := by
  cases a <;> cases b <;> rfl

theorem and_assoc (a b c : Truth) : (a.and b).and c = a.and (b.and c) := by
  cases a <;> cases b <;> cases c <;> rfl

theorem or_assoc (a b c : Truth) : (a.or b).or c = a.or (b.or c) := by
  cases a <;> cases b <;> cases c <;> rfl

theorem and_or_left (a b c : Truth) : a.and (b.or c) = (a.and b).or (a.and c) := by
  cases a <;> cases b <;> cases c <;> rfl

@[simp] theorem yes_and (a : Truth) : yes.and a = a := by cases a <;> rfl

@[simp] theorem and_yes (a : Truth) : a.and yes = a := by cases a <;> rfl

@[simp] theorem no_or (a : Truth) : no.or a = a := by cases a <;> rfl

@[simp] theorem or_no (a : Truth) : a.or no = a := by cases a <;> rfl

@[simp] theorem and_no (a : Truth) : a.and no = no := by cases a <;> rfl

theorem and_eq_yes {a b : Truth} : a.and b = yes ↔ a = yes ∧ b = yes := by
  cases a <;> cases b <;> decide

theorem flipIf_ofBool (n b : Bool) : flipIf n (ofBool b) = ofBool (b ^^ n) := by
  cases n <;> cases b <;> rfl

theorem flipIf_not (n : Bool) (t : Truth) : flipIf n t.not = flipIf (!n) t := by
  cases n <;> simp [flipIf]

theorem flipIf_flipIf (m n : Bool) (t : Truth) : flipIf m (flipIf n t) = flipIf (m ^^ n) t := by
  cases m <;> cases n <;> simp [flipIf]

/-! ## Groups -/

def joined : Clause → Truth → Truth → Truth
  | .and => and
  | .or => or

/-- What a group of no elements would be. -/
def neutral : Clause → Truth
  | .and => yes
  | .or => no

def group (c : Clause) (ts : List Truth) : Truth := ts.foldr (joined c) (neutral c)

@[simp] theorem group_nil (c : Clause) : group c [] = neutral c := rfl

@[simp] theorem group_cons (c : Clause) (t : Truth) (ts : List Truth) :
    group c (t :: ts) = joined c t (group c ts) := rfl

@[simp] theorem group_singleton (c : Clause) (t : Truth) : group c [t] = t := by
  cases c <;> simp [joined, neutral]

theorem joined_assoc (k : Clause) (a b c : Truth) :
    joined k (joined k a b) c = joined k a (joined k b c) := by
  cases k
  · exact and_assoc a b c
  · exact or_assoc a b c

theorem flipIf_joined (n : Bool) (c : Clause) (a b : Truth) :
    flipIf n (joined c a b) = joined (if n then c.flip else c) (flipIf n a) (flipIf n b) := by
  cases n
  · rfl
  · cases c
    · exact not_and a b
    · exact not_or a b

/-- A negated group is the other group of the negated elements. -/
theorem flipIf_group (n : Bool) (c : Clause) (ts : List Truth) :
    flipIf n (group c ts) = group (if n then c.flip else c) (ts.map (flipIf n)) := by
  induction ts with
  | nil => cases n <;> cases c <;> rfl
  | cons t ts ih => rw [List.map_cons, group_cons, group_cons, flipIf_joined, ih]

theorem group_append (c : Clause) (ts us : List Truth) :
    group c (ts ++ us) = joined c (group c ts) (group c us) := by
  induction ts with
  | nil => cases c <;> simp [joined, neutral]
  | cons t ts ih => rw [List.cons_append, group_cons, group_cons, ih, joined_assoc]

end Truth
end Polystore
