import Polystore.Proofs.Entries
import Polystore.Value.Basic

/-! # Equality of values

Equality passes from value to value, so a set that drops what equals a member it has kept drops
exactly what equals any member before. -/

namespace Polystore
set_option autoImplicit false

/-! ## Doubles -/

namespace Double
open Float.Model

/-- Equal as numbers: infinities of one sign, zeros, or one finite number. -/
inductive Equals : UnpackedFloat → UnpackedFloat → Prop
  | infinity (s : UnpackedFloat.Sign) : Equals (.infinity s) (.infinity s)
  | zero (s s' : UnpackedFloat.Sign) : Equals (.zero s) (.zero s')
  | finite (s : UnpackedFloat.Sign) (m : Nat) (e : Int) (hm : 0 < m) :
    Equals (.finite s m e hm) (.finite s m e hm)

section
variable {a b c : UnpackedFloat}

theorem Equals.trans (hab : Equals a b) (hbc : Equals b c) : Equals a c := by
  cases hab with
  | infinity s => exact hbc
  | zero s s' =>
    cases hbc
    exact .zero s _
  | finite s m e hm => exact hbc

theorem equals_of_compare (h : a.compare b = some .eq) : Equals a b := by
  cases a with
  | notANumber => cases b <;> cases h
  | infinity s =>
    cases b with
    | infinity s' => cases s <;> cases s' <;> first | exact .infinity _ | cases h
    | _ => cases s <;> cases h
  | zero s =>
    cases b with
    | zero s' => exact .zero s s'
    | notANumber => cases h
    | infinity s' | finite s' => cases s' <;> cases h
  | finite s m e hm =>
    cases b with
    | notANumber => cases h
    | infinity s' => cases s' <;> cases s <;> cases h
    | zero s' => cases s <;> cases h
    | finite s' m' e' hm' =>
      have hparts : s = s' ∧ (compare e e').then (compare m m') = .eq := by
        cases s <;> cases s'
        · exact ⟨rfl, Ordering.swap_eq_eq.mp (Option.some.inj h)⟩
        · cases h
        · cases h
        · exact ⟨rfl, Option.some.inj h⟩
      obtain ⟨rfl, hparts⟩ := hparts
      obtain ⟨he, hm⟩ := Ordering.then_eq_eq.mp hparts
      obtain rfl := Std.LawfulEqOrd.compare_eq_iff_eq.mp he
      obtain rfl := Std.LawfulEqOrd.compare_eq_iff_eq.mp hm
      exact .finite s m e _

theorem compare_of_equals (h : Equals a b) : a.compare b = some .eq := by
  cases h with
  | infinity s => cases s <;> rfl
  | zero s s' => rfl
  | finite s m e hm =>
    have hself : (compare e e).then (compare m m) = .eq :=
      Ordering.then_eq_eq.mpr ⟨Std.ReflOrd.compare_self, Std.ReflOrd.compare_self⟩
    cases s with
    | negative => exact congrArg some (Ordering.swap_eq_eq.mpr hself)
    | positive => exact congrArg some hself

end

theorem beq_iff_equals {a b : Float} :
    (a == b) = true ↔ Equals a.toModel.unpack b.toModel.unpack := by
  show (a.toModel.unpack.compare b.toModel.unpack == some Ordering.eq) = true ↔ _
  rw [beq_iff_eq]
  exact ⟨equals_of_compare, compare_of_equals⟩

theorem beq_trans {a b c : Float} (hab : (a == b) = true) (hbc : (b == c) = true) :
    (a == c) = true := by
  rw [beq_iff_equals] at hab hbc ⊢
  exact hab.trans hbc

end Double

/-! ## JSON -/

namespace Json

theorem sameMembers_iff {as bs : List (String × Json)} : sameMembers as bs = true ↔
    ∀ k a, (k, a) ∈ as → ∃ b, bs.lookup k = some b ∧ same a b = true := by
  induction as with
  | nil => simp [sameMembers]
  | cons e as ih =>
    obtain ⟨k, a⟩ := e
    rw [sameMembers, Bool.and_eq_true, ih]
    simp only [List.mem_cons, Prod.mk.injEq]
    constructor
    · rintro ⟨hfirst, hrest⟩ l x (⟨rfl, rfl⟩ | hmem)
      · split at hfirst
        · rename_i b hb
          exact ⟨b, hb, hfirst⟩
        · cases hfirst
      · exact hrest l x hmem
    · intro h
      refine ⟨?_, fun l x hmem => h l x (.inr hmem)⟩
      obtain ⟨b, hb, hsame⟩ := h k a (.inl ⟨rfl, rfl⟩)
      rw [hb]
      exact hsame

mutual
theorem same_trans : (a b c : Json) → same a b = true → same b c = true → same a c = true
  | .null, .null, c, _, h => h
  | .bool a, .bool b, .bool c, hab, hbc => by
    simp only [same, beq_iff_eq] at hab hbc ⊢
    exact hab.trans hbc
  | .int a, .int b, .int c, hab, hbc => by
    simp only [same, beq_iff_eq] at hab hbc ⊢
    exact hab.trans hbc
  | .float a, .float b, .float c, hab, hbc => Double.beq_trans hab hbc
  | .str a, .str b, .str c, hab, hbc => by
    simp only [same, beq_iff_eq] at hab hbc ⊢
    exact hab.trans hbc
  | .arr as, .arr bs, .arr cs, hab, hbc => sameItems_trans as bs cs hab hbc
  | .obj as, .obj bs, .obj cs, hab, hbc => by
    simp only [same, Bool.and_eq_true, beq_iff_eq] at hab hbc ⊢
    exact ⟨hab.1.trans hbc.1, sameMembers_trans as bs cs hab.2 hbc.2⟩
theorem sameItems_trans : (as bs cs : List Json) → sameItems as bs = true →
    sameItems bs cs = true → sameItems as cs = true
  | [], [], _, _, h => h
  | a :: as, b :: bs, c :: cs, hab, hbc => by
    simp only [sameItems, Bool.and_eq_true] at hab hbc ⊢
    exact ⟨same_trans a b c hab.1 hbc.1, sameItems_trans as bs cs hab.2 hbc.2⟩
theorem sameMembers_trans : (as bs cs : List (String × Json)) → sameMembers as bs = true →
    sameMembers bs cs = true → sameMembers as cs = true
  | [], _, _, _, _ => rfl
  | (k, a) :: as, bs, cs, hab, hbc => by
    have hall := sameMembers_iff.mp hab
    obtain ⟨b, hb, hsame⟩ := hall k a List.mem_cons_self
    obtain ⟨c, hc, hsame'⟩ := sameMembers_iff.mp hbc k b (Entries.mem_of_lookup hb)
    have hrest : sameMembers as bs = true :=
      sameMembers_iff.mpr fun l x hmem => hall l x (List.mem_cons_of_mem _ hmem)
    rw [sameMembers, hc, sameMembers_trans as bs cs hrest hbc, Bool.and_true]
    exact same_trans a b c hsame hsame'
end

end Json

/-! ## Values -/

namespace Value

mutual
theorem same_trans : (a b c : Value) → same a b = true → same b c = true → same a c = true
  | null, null, _, _, h => h
  | bool a, bool b, bool c, hab, hbc | int a, int b, int c, hab, hbc
  | long a, long b, long c, hab, hbc | str a, str b, str c, hab, hbc
  | uuid a, uuid b, uuid c, hab, hbc | instant a, instant b, instant c, hab, hbc
  | param a, param b, param c, hab, hbc => by
    simp only [same, beq_iff_eq] at hab hbc ⊢
    exact hab.trans hbc
  | double a, double b, double c, hab, hbc => Double.beq_trans hab hbc
  | json a, json b, json c, hab, hbc => Json.same_trans a b c hab hbc
  | list as, list bs, list cs, hab, hbc => sameItems_trans as bs cs hab hbc
  | map as, map bs, map cs, hab, hbc => sameEntries_trans as bs cs hab hbc
theorem sameItems_trans : (as bs cs : List Value) → sameItems as bs = true →
    sameItems bs cs = true → sameItems as cs = true
  | [], [], _, _, h => h
  | a :: as, b :: bs, c :: cs, hab, hbc => by
    simp only [sameItems, Bool.and_eq_true] at hab hbc ⊢
    exact ⟨same_trans a b c hab.1 hbc.1, sameItems_trans as bs cs hab.2 hbc.2⟩
theorem sameEntries_trans : (as bs cs : List (String × Value)) → sameEntries as bs = true →
    sameEntries bs cs = true → sameEntries as cs = true
  | [], [], _, _, h => h
  | (k, a) :: as, (l, b) :: bs, (m, c) :: cs, hab, hbc => by
    simp only [sameEntries, Bool.and_eq_true, beq_iff_eq] at hab hbc ⊢
    exact ⟨⟨hab.1.1.trans hbc.1.1, same_trans a b c hab.1.2 hbc.1.2⟩,
      sameEntries_trans as bs cs hab.2 hbc.2⟩
end

/-! ## Sets -/

/-- The members that equal no earlier one, if these stand before the list. -/
def newAfter (before : List Value) : List Value → List Value
  | [] => []
  | v :: vs => (if before.any (same v) then [] else [v]) ++ newAfter (before ++ [v]) vs

/-- The first of each of the equal members of a list, in their order. -/
def firsts (vs : List Value) : List Value := newAfter [] vs

/-- Of the earlier members only the kept ones need to be looked at. -/
theorem foldl_eq_newAfter {before kept vs : List Value}
    (h : ∀ v, before.any (same v) = kept.any (same v)) :
    vs.foldl (fun kept v => if kept.any (same v) then kept else kept ++ [v]) kept =
      kept ++ newAfter before vs := by
  induction vs generalizing before kept with
  | nil => exact (List.append_nil kept).symm
  | cons v vs ih =>
    rw [List.foldl_cons, newAfter, h v]
    cases hkept : kept.any (same v) with
    | true =>
      rw [if_pos rfl, if_pos rfl, List.nil_append]
      refine ih fun w => ?_
      -- what equals the repeated member equals the one it repeats
      obtain ⟨k, hk, hsame⟩ := List.any_eq_true.mp hkept
      rw [List.any_append, h w, List.any_cons, List.any_nil, Bool.or_false, Bool.or_eq_left_iff_imp]
      exact fun hw => List.any_eq_true.mpr ⟨k, hk, same_trans w v k hw hsame⟩
    | false =>
      rw [if_neg Bool.false_ne_true, if_neg Bool.false_ne_true, ← List.append_assoc]
      refine ih fun w => ?_
      rw [List.any_append, List.any_append, h w]

theorem dedup_eq_firsts (vs : List Value) : dedup vs = firsts vs :=
  foldl_eq_newAfter fun _ => rfl

end Value
end Polystore
