import Polystore.Proofs.Sql.Meaning

/-! # Predicates are read back as they were meant

Whatever stands behind them, the tokens of a predicate are read as one operand if the predicate
stands alone, and else as a condition of their own. The induction is on the shape of predicates;
reading goes on behind them with a level that has grown by what they state. -/

namespace Polystore.Sql
set_option autoImplicit false

open Tokens (key spaced commaSeparated parenthesized join)

/-! ## Items -/

theorem slots_append (ts us : Tokens) : slots (ts ++ us) = slots ts + slots us :=
  List.countP_append

theorem fill_append {ts us : Tokens} {bs cs : List Bind} (h : slots ts = bs.length) :
    fill (ts ++ us) (bs ++ cs) = fill ts bs ++ fill us cs := by
  fun_induction fill ts bs with
  | case1 bs =>
    cases bs with
    | nil => rfl
    | cons b bs => cases h
  | case2 name ts b bs ih =>
    have h' : slots ts = bs.length := Nat.succ.inj (Eq.trans (List.countP_cons_of_pos rfl).symm h)
    exact congrArg (Item.value b :: ·) (ih h')
  | case3 t ts bs hm ih =>
    cases t with
    | marker name =>
      cases bs with
      | nil => rw [slots, List.countP_cons_of_pos rfl] at h; cases h
      | cons b bs => exact absurd rfl (hm name b bs rfl)
    | _ => exact congrArg (Item.word _ :: ·) (ih h)

theorem items_append {ts : Tokens} {bs : List Bind} (h : slots ts = bs.length) (us : Tokens)
    (cs : List Bind) : items (ts ++ us) (bs ++ cs) = items ts bs ++ items us cs := by
  rw [items, fill_append h, List.filter_append]
  rfl

theorem items_append_of_slots (ts : Tokens) (h : slots ts = 0) (us : Tokens) (bs : List Bind) :
    items (ts ++ us) bs = items ts [] ++ items us bs := @items_append ts [] h us bs

/-! ## Lexemes -/

theorem lexemes_connective {i : Item} {l : Lexeme} (h : connective i = some l) (r : List Item) :
    lexemes (i :: r) = l :: lexemes r := by
  rw [lexemes, h]

theorem lexemes_leading {i : Item} {r rest : List Item} {ls : List Lexeme}
    (hc : connective i = none) (hs : isClauseStart i = false)
    (h : leading (i :: r) = some (ls, rest)) : lexemes (i :: r) = ls ++ lexemes rest := by
  rw [lexemes, hc]
  simp only [hs, Bool.false_eq_true, if_false]
  split
  · next ls' rest' h' =>
    obtain ⟨rfl, rfl⟩ := Prod.mk.inj (Option.some.inj (h.symm.trans h'))
    rfl
  · next h' => cases h.symm.trans h'

/-! ## Operands -/

/-- Read as one operand, whatever stands around it. -/
structure Operand (ts : Tokens) (bs : List Bind) (e : Expr) : Prop where
  balanced : slots ts = bs.length
  reads : ∀ (outer : List Level) (l : Level) (rest : List Item),
    read outer l false (lexemes (items ts bs ++ rest)) = read outer (l.operand e) true (lexemes rest)

/-- Read as a whole condition, from the beginning of a level. -/
structure Whole (ts : Tokens) (bs : List Bind) (e : Expr) : Prop where
  balanced : slots ts = bs.length
  reads : ∃ l : Level, l.value? = some e ∧ ∀ (outer : List Level) (rest : List Item),
    read outer .start false (lexemes (items ts bs ++ rest)) = read outer l true (lexemes rest)

inductive Operands : List Tokens → List Bind → List Expr → Prop
  | nil : Operands [] [] []
  | cons {ts : Tokens} {tss : List Tokens} {bs cs : List Bind} {e : Expr} {es : List Expr}
    (h : Operand ts bs e) (hs : Operands tss cs es) : Operands (ts :: tss) (bs ++ cs) (e :: es)

section
variable {ts : Tokens} {bs : List Bind} {e : Expr}

theorem Operand.whole (h : Operand ts bs e) : Whole ts bs e :=
  ⟨h.balanced, Level.start.operand e, rfl, fun outer rest => h.reads outer .start rest⟩

theorem Whole.parenthesized (h : Whole ts bs e) : Operand (parenthesized ts) bs e := by
  obtain ⟨hb, l, hl, hr⟩ := h
  have hslots : slots (.key .lparen :: ts) = bs.length := hb
  refine ⟨?_, fun outer m rest => ?_⟩
  · rw [Tokens.parenthesized, slots_append, hslots]
    rfl
  · have hitems : items (Tokens.parenthesized ts) bs ++ rest =
        .word (.key .lparen) :: (items ts bs ++ (.word (.key .rparen) :: rest)) := by
      have := items_append hslots [.key .rparen] []
      rw [List.append_nil] at this
      rw [Tokens.parenthesized, this, List.append_assoc]
      rfl
    rw [hitems, lexemes_connective (l := .lparen) rfl, read, if_neg Bool.false_ne_true, hr,
      lexemes_connective (l := .rparen) rfl, read, if_pos rfl, hl]
    rfl

theorem Operand.not (h : Operand ts bs e) :
    Operand (.key .not :: .key .space :: ts) bs (.not e) := by
  refine ⟨h.balanced, fun outer l rest => ?_⟩
  have hitems : items (.key .not :: .key .space :: ts) bs = .word (.key .not) :: items ts bs := rfl
  rw [hitems, List.cons_append, lexemes_connective (l := .not) rfl, read,
    if_neg Bool.false_ne_true, h.reads]
  rfl

/-! ## Chains -/

/-- A level on which operands joined in one way have been read, and nothing else. -/
def Level.Holds (c : Clause) (l : Level) (e : Expr) : Prop :=
  match c with
  | .and => l = ⟨none, some e, 0⟩
  | .or => l.value? = some e

theorem Level.Holds.value {c : Clause} {l : Level} (h : l.Holds c e) : l.value? = some e := by
  cases c with
  | and => exact congrArg Level.value? (show l = ⟨none, some e, 0⟩ from h)
  | or => exact h

theorem Level.holds_start (c : Clause) : (Level.start.operand e).Holds c e := by
  cases c <;> rfl

def clauseLexeme : Clause → Lexeme
  | .and => .and
  | .or => .or

theorem items_clauseSeparator (c : Clause) (us : Tokens) (cs : List Bind) :
    items (Pred.clauseSeparator c ++ us) cs = .word (.key (clauseKey c)) :: items us cs := by
  cases c <;> rfl

theorem lexemes_clauseKey (c : Clause) (r : List Item) :
    lexemes (.word (.key (clauseKey c)) :: r) = clauseLexeme c :: lexemes r := by
  cases c
  · exact lexemes_connective rfl r
  · exact lexemes_connective rfl r

theorem Operand.joined (h : Operand ts bs e) {c : Clause} {l : Level} {a : Expr}
    (hl : l.Holds c a) : ∃ l' : Level, l'.Holds c (.joined c a e) ∧
      ∀ (outer : List Level) (rest : List Item),
        read outer l true (lexemes (items (Pred.clauseSeparator c ++ ts) bs ++ rest)) =
          read outer l' true (lexemes rest) := by
  cases c with
  | and =>
    refine ⟨l.operand e, ?_, fun outer rest => ?_⟩
    · rw [show l = ⟨none, some a, 0⟩ from hl]
      rfl
    · rw [items_clauseSeparator, List.cons_append, lexemes_clauseKey, clauseLexeme, read,
        if_pos rfl, h.reads]
  | or =>
    refine ⟨l.alternative.operand e, ?_, fun outer rest => ?_⟩
    · rw [Level.Holds, Level.alternative, hl]
      rfl
    · rw [items_clauseSeparator, List.cons_append, lexemes_clauseKey, clauseLexeme, read,
        if_pos rfl, h.reads]

end

/-- The further elements of a group, each behind the keyword. -/
def continued (c : Clause) (tss : List Tokens) : Tokens :=
  tss.flatMap (Pred.clauseSeparator c ++ ·)

theorem join_cons (c : Clause) (ts : Tokens) (tss : List Tokens) :
    join (Pred.clauseSeparator c) (ts :: tss) = ts ++ continued c tss := by
  induction tss generalizing ts with
  | nil => exact (List.append_nil ts).symm
  | cons us tss ih =>
    have hcons : continued c (us :: tss) = (Pred.clauseSeparator c ++ us) ++ continued c tss := rfl
    rw [join, ih us, hcons, List.append_assoc, List.append_assoc]
    · intro h
      cases h

theorem Operands.continued {tss : List Tokens} {bs : List Bind} {es : List Expr}
    (h : Operands tss bs es) (c : Clause) :
    slots (continued c tss) = bs.length ∧ ∀ {l : Level} {a : Expr}, l.Holds c a →
      ∃ l' : Level, l'.Holds c (.chain c a es) ∧ ∀ (outer : List Level) (rest : List Item),
        read outer l true (lexemes (items (continued c tss) bs ++ rest)) =
          read outer l' true (lexemes rest) := by
  induction h with
  | nil => exact ⟨rfl, fun {l} {a} hl => ⟨l, hl, fun _ _ => rfl⟩⟩
  | @cons ts tss bs cs e es h hs ih =>
    obtain ⟨hb, ih⟩ := ih
    have hts : slots (Pred.clauseSeparator c ++ ts) = bs.length := by
      rw [slots_append, h.balanced]
      cases c <;> exact Nat.zero_add _
    have hcons : Sql.continued c (ts :: tss) =
        (Pred.clauseSeparator c ++ ts) ++ Sql.continued c tss := rfl
    refine ⟨?_, fun {l} {a} hl => ?_⟩
    · rw [hcons, slots_append, hts, hb, List.length_append]
    · obtain ⟨l₁, h₁, hr₁⟩ := h.joined hl
      obtain ⟨l₂, h₂, hr₂⟩ := ih h₁
      refine ⟨l₂, h₂, fun outer rest => ?_⟩
      rw [hcons, items_append hts, List.append_assoc, hr₁, hr₂]

/-- A group without parentheses is read as a whole condition. -/
theorem Operands.whole {ts : Tokens} {tss : List Tokens} {bs : List Bind} {e : Expr}
    {es : List Expr} (h : Operands (ts :: tss) bs (e :: es)) (c : Clause) :
    Whole (join (Pred.clauseSeparator c) (ts :: tss)) bs (.chain c e es) := by
  cases h with
  | @cons _ _ bs cs _ _ h hs =>
    obtain ⟨hb, hr⟩ := hs.continued c
    obtain ⟨l, hl, hr⟩ := hr (Level.holds_start (e := e) c)
    refine ⟨?_, l, hl.value, fun outer rest => ?_⟩
    · rw [join_cons, slots_append, h.balanced, hb, List.length_append]
    · rw [join_cons, items_append h.balanced, List.append_assoc, h.reads, hr]

/-! ## Tests -/

section
variable {view : View} {n : Nat}

theorem slots_markersAfter (bs : List Bind) :
    slots (commaSeparated (markersAfter n bs)) = bs.length := by
  induction bs generalizing n with
  | nil => rfl
  | cons b bs ih =>
    cases bs with
    | nil => rfl
    | cons b' bs =>
      have h : slots (commaSeparated (markersAfter n (b :: b' :: bs))) =
          1 + slots (commaSeparated (markersAfter (n + 1) (b' :: bs))) :=
        slots_append [marker (n + 1), .key .comma, .key .space] _
      rw [h, ih, Nat.add_comm]
      rfl

theorem members_markersAfter {bs : List Bind} (h : bs ≠ []) (r : List Item) :
    members (items (commaSeparated (markersAfter n bs)) bs ++ .word (.key .rparen) :: r) =
      some (bs, r) := by
  induction bs generalizing n with
  | nil => exact absurd rfl h
  | cons b bs ih =>
    cases bs with
    | nil => rfl
    | cons b' bs =>
      have hitems : items (commaSeparated (markersAfter n (b :: b' :: bs))) (b :: b' :: bs) =
          .value b :: .word (.key .comma) ::
            items (commaSeparated (markersAfter (n + 1) (b' :: bs))) (b' :: bs) := rfl
      rw [hitems, List.cons_append, List.cons_append, members, ih (List.cons_ne_nil _ _)]
      rfl

theorem operand_of_leading {ts : Tokens} {bs : List Bind} {t : Test} (hb : slots ts = bs.length)
    {i : Item} {is : List Item} (hi : items ts bs = i :: is) (hc : connective i = none)
    (hs : isClauseStart i = false) (hl : ∀ r, leading (i :: (is ++ r)) = some ([.test t], r)) :
    Operand ts bs (.test t) := by
  refine ⟨hb, fun outer l rest => ?_⟩
  rw [hi, List.cons_append, lexemes_leading hc hs (hl rest), List.singleton_append, read,
    if_neg Bool.false_ne_true]

theorem keywordTest_compare {e : String} {op : Keyword} (h : op ∈ comparisons) (b : Bind)
    (r : List Item) : keywordTest e op (.value b :: r) = some ([.test (.compare e op b)], r) := by
  unfold comparisons at h
  simp only [List.mem_cons, List.not_mem_nil, or_false] at h
  rcases h with rfl | rfl | rfl | rfl | rfl | rfl | rfl <;> rfl

theorem slots_among (front : Tokens) (hf : slots front = 0) (bs : List Bind) :
    slots (front ++ parenthesized (commaSeparated (markersAfter n bs))) = bs.length := by
  have hp : slots (parenthesized (commaSeparated (markersAfter n bs))) =
      slots (commaSeparated (markersAfter n bs)) := slots_append (.key .lparen :: _) [.key .rparen]
  rw [slots_append, hf, Nat.zero_add, hp, slots_markersAfter]

theorem lexemes_among (front : Tokens) (ls : List Bind → List Lexeme) (hf : slots front = 0)
    {i : Item} {is : List Item} (hi : items front [] = i :: is) (hc : connective i = none)
    (hs : isClauseStart i = false) (hl : ∀ q, leading (i :: (is ++ .word (.key .lparen) :: q)) =
      (members q).map fun m => (ls m.1, m.2)) {bs : List Bind} (h : bs ≠ []) (r : List Item) :
    lexemes (items (front ++ parenthesized (commaSeparated (markersAfter n bs))) bs ++ r) =
      ls bs ++ lexemes r := by
  have hlist := items_append (slots_markersAfter (n := n) bs) [.key .rparen] []
  rw [List.append_nil] at hlist
  have hp : parenthesized (commaSeparated (markersAfter n bs)) =
      [.key .lparen] ++ (commaSeparated (markersAfter n bs) ++ [.key .rparen]) := rfl
  have hitems : items (front ++ parenthesized (commaSeparated (markersAfter n bs))) bs ++ r =
      i :: (is ++ .word (.key .lparen) ::
        (items (commaSeparated (markersAfter n bs)) bs ++ .word (.key .rparen) :: r)) := by
    rw [items_append_of_slots front hf, hp, items_append_of_slots [.key .lparen] rfl, hlist, hi,
      List.append_assoc, List.append_assoc, List.append_assoc]
    rfl
  have hlead := hl (items (commaSeparated (markersAfter n bs)) bs ++ .word (.key .rparen) :: r)
  rw [members_markersAfter h] at hlead
  rw [hitems, lexemes_leading hc hs hlead]

theorem Leaf.operand {ts : Tokens} {bs : List Bind} {e : Expr} (h : Leaf view n ts bs e) :
    Operand ts bs e := by
  cases h with
  | constant b =>
    refine ⟨rfl, fun outer l rest => ?_⟩
    have hl : leading (.word (.litBool b) :: rest) = some ([.const b], rest) := rfl
    have hitems : items [.litBool b] [] ++ rest = .word (.litBool b) :: rest := rfl
    rw [hitems, lexemes_leading rfl rfl hl, List.singleton_append, read, if_neg Bool.false_ne_true]
  | isNull path => exact operand_of_leading rfl rfl rfl rfl fun _ => rfl
  | isNotNull path => exact operand_of_leading rfl rfl rfl rfl fun _ => rfl
  | compare path op b h =>
    have hb : slots (spaced [[.raw (view.refPath path)], key op, [marker (n + 1)]]) = 1 := rfl
    have hne : op ≠ .space := by
      intro he
      subst he
      exact absurd h (by decide)
    have hitems : items (spaced [[.raw (view.refPath path)], key op, [marker (n + 1)]]) [b] =
        [.word (.raw (view.refPath path)), .word (.key op), .value b] := by
      cases op
      case space => exact absurd rfl hne
      all_goals rfl
    exact operand_of_leading hb hitems rfl rfl (keywordTest_compare h b)
  | between path lo hi => exact operand_of_leading rfl rfl rfl rfl fun _ => rfl
  | among path bs h =>
    let front : Tokens := [.raw (view.refPath path), .key .space, .key .in, .key .space]
    refine ⟨slots_among front rfl bs, fun outer l rest => ?_⟩
    have hlex := lexemes_among (n := n) front (fun bs => [.test (.among (view.refPath path) bs)])
      rfl rfl rfl rfl (fun _ => rfl) h rest
    show read outer l false (lexemes (items (front ++ parenthesized _) bs ++ rest)) = _
    rw [hlex, List.singleton_append, read, if_neg Bool.false_ne_true]
  | outside path bs h =>
    let front : Tokens := [.raw (view.refPath path), .key .space, .key .not, .key .space, .key .in,
      .key .space]
    refine ⟨slots_among front rfl bs, fun outer l rest => ?_⟩
    have hlex := lexemes_among (n := n) front (fun bs => [.not, .test (.among (view.refPath path) bs)])
      rfl rfl rfl rfl (fun _ => rfl) h rest
    show read outer l false (lexemes (items (front ++ parenthesized _) bs ++ rest)) = _
    rw [hlex, List.cons_append, List.singleton_append, read, if_neg Bool.false_ne_true, read,
      if_neg Bool.false_ne_true]
    rfl
  | native path op b h => exact operand_of_leading rfl rfl rfl rfl fun _ => rfl
  | present path text => exact operand_of_leading rfl rfl rfl rfl fun _ => rfl

end

/-! ## Predicates -/

mutual
/-- A predicate that stands alone is read as one operand. -/
theorem Stated.operand {view : View} {n : Nat} {p : Pred} {bs : List Bind} {e : Expr}
    (h : Stated view n true p bs e) : Operand p.tokens bs e := by
  match h with
  | .leaf h =>
    rw [Pred.tokens, if_neg Bool.false_ne_true]
    exact h.operand
  | .negated h =>
    rw [Pred.tokens, if_pos rfl]
    exact h.operand.whole.parenthesized.not
  | @Stated.group _ _ _ wrapped c ps _ e es h hw =>
    have hops := h.operands
    cases hps : Pred.tokensAll ps with
    | nil =>
      rw [hps] at hops
      cases hops
    | cons ts tss =>
      rw [hps] at hops
      rw [Pred.tokens, hps]
      cases wrapped with
      | true => exact (hops.whole c).parenthesized
      | false =>
        -- A single part needs no parentheses: there is nothing to keep it apart from.
        cases es with
        | cons f es => cases hw rfl (List.cons_ne_nil f es)
        | nil =>
          cases hops with
          | @cons _ _ bs _ _ _ hop hnil =>
            cases hnil
            show Operand ts (bs ++ []) e
            rw [List.append_nil]
            exact hop
theorem StatedAll.operands {view : View} {n : Nat} {ps : List Pred} {bs : List Bind}
    {es : List Expr} (h : StatedAll view n true ps bs es) : Operands (Pred.tokensAll ps) bs es := by
  match h with
  | .nil => exact .nil
  | .cons h hs => exact .cons h.operand hs.operands
end

/-- A predicate is read as a whole condition, parentheses around it or not. -/
theorem Stated.whole {view : View} {n : Nat} {alone : Bool} {p : Pred} {bs : List Bind} {e : Expr}
    (h : Stated view n alone p bs e) : Whole p.tokens bs e := by
  cases h with
  | leaf h => exact (Stated.leaf h).operand.whole
  | negated h => exact (Stated.negated h).operand.whole
  | @group _ _ wrapped c ps _ e es h hw =>
    have hops := h.operands
    cases hps : Pred.tokensAll ps with
    | nil =>
      rw [hps] at hops
      cases hops
    | cons ts tss =>
      rw [hps] at hops
      rw [Pred.tokens, hps]
      cases wrapped with
      | true => exact (hops.whole c).parenthesized.whole
      | false => exact hops.whole c

end Polystore.Sql
