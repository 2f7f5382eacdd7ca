import Mathlib.Tactic
import Polystore.Json.Reading

/-! # Texts of JSON strings

A text that is read as a JSON string has quotes around it, so it is longer than the string and no
text is read as itself. -/

namespace Polystore.Json
set_option autoImplicit false

variable {cs r : List Char}

theorem hex4?_length {n : Nat} (h : hex4? cs = some (n, r)) : r.length < cs.length := by
  unfold hex4? at h
  split at h
  · simp only [Option.bind_eq_bind, Option.bind_eq_some_iff, Option.some.injEq, Prod.mk.injEq] at h
    obtain ⟨a, -, b, -, c, -, d, -, -, rfl⟩ := h
    simp only [List.length_cons]
    omega
  · cases h

theorem unicode?_length {c : Char} (h : unicode? cs = some (c, r)) : r.length < cs.length := by
  simp only [unicode?, Option.bind_eq_bind, Option.bind_eq_some_iff] at h
  obtain ⟨⟨hi, r₁⟩, hfirst, h⟩ := h
  have hread := hex4?_length hfirst
  dsimp only at h
  split at h
  · cases h
    exact hread
  · split at h
    · cases h
    · split at h
      · simp only [Option.bind_eq_some_iff] at h
        obtain ⟨⟨lo, r₂⟩, hsecond, h⟩ := h
        have hread' := hex4?_length hsecond
        dsimp only at h
        split at h
        · obtain ⟨-, rfl⟩ := Prod.mk.inj (Option.some.inj h)
          simp only [List.length_cons] at hread
          omega
        · cases h
      · cases h

/-- Each character that is read of a string takes at least one of the text, and so does its end. -/
theorem string?_length {n : Nat} {t : List Char} (h : string? n cs = some (t, r)) :
    t.length + r.length < cs.length := by
  induction n generalizing cs t with
  | zero => cases h
  | succ n ih =>
    cases cs with
    | nil => cases h
    | cons c cs =>
      unfold string? at h
      split at h
      · cases h
        simp
      · split at h
        · split at h
          · simp only [Option.bind_eq_bind, Option.bind_eq_some_iff] at h
            obtain ⟨⟨c', r₁⟩, hchar, ⟨t', r₂⟩, hrest, h⟩ := h
            cases h
            have hread := unicode?_length hchar
            have hlater := ih hrest
            simp only [List.length_cons] at *
            omega
          · simp only [Option.bind_eq_bind, Option.bind_eq_some_iff] at h
            obtain ⟨c', -, ⟨t', r₂⟩, hrest, h⟩ := h
            cases h
            have hlater := ih hrest
            simp only [List.length_cons] at *
            omega
          · cases h
        · split at h
          · cases h
          · simp only [Option.bind_eq_bind, Option.bind_eq_some_iff] at h
            obtain ⟨⟨t', r₂⟩, hrest, h⟩ := h
            cases h
            have hlater := ih hrest
            simp only [List.length_cons] at *
            omega

theorem skipSpace_length (cs : List Char) : (skipSpace cs).length ≤ cs.length :=
  (List.dropWhile_sublist isSpace).length_le

theorem number?_ne_str {neg : Bool} {j : Json} (h : number? neg cs = some (j, r)) (s : String) :
    j ≠ .str s := by
  rintro rfl
  unfold number? at h
  dsimp only at h
  split at h
  · cases h
  · split at h
    · split at h
      · cases h
      · split at h
        · obtain ⟨p, -, h⟩ := Option.map_eq_some_iff.mp h
          cases h
        · obtain ⟨p, -, h⟩ := Option.map_eq_some_iff.mp h
          cases h
        · cases h
    · obtain ⟨p, -, h⟩ := Option.map_eq_some_iff.mp h
      cases h
    · obtain ⟨p, -, h⟩ := Option.map_eq_some_iff.mp h
      cases h
    · have hint := (Prod.mk.inj (Option.some.inj h)).1
      unfold intOf at hint
      dsimp only at hint
      repeat' split at hint
      all_goals cases hint

theorem value?_str {n : Nat} {s : String} (h : value? n cs = some (.str s, r)) :
    s.toList.length < cs.length := by
  cases n with
  | zero => cases h
  | succ n =>
    have hskip := skipSpace_length cs
    unfold value? at h
    split at h
    · cases h
    · cases h
    · cases h
    · rename_i r₁ hcs
      obtain ⟨⟨t, r₂⟩, hstring, h⟩ := Option.map_eq_some_iff.mp h
      cases h
      have hread := string?_length hstring
      rw [hcs, List.length_cons] at hskip
      rw [String.toList_ofList]
      omega
    · split at h
      · cases h
      · obtain ⟨p, -, h⟩ := Option.map_eq_some_iff.mp h
        cases h
    · split at h
      · cases h
      · obtain ⟨p, -, h⟩ := Option.map_eq_some_iff.mp h
        cases h
    · exact absurd rfl (number?_ne_str h s)
    · exact absurd rfl (number?_ne_str h s)

/-- A text that is read as a string is longer than it. -/
theorem parse?_str {s t : String} (h : parse? s = some (.str t)) : t.toList.length < s.toList.length := by
  unfold parse? at h
  split at h
  · rename_i j hraw
    split at h
    · have hj : j = .str t := by
        cases j with
        | str t' => exact Option.some.inj h
        | _ => cases h
      subst hj
      unfold parseRaw? at hraw
      dsimp only at hraw
      split at hraw
      · rename_i j' r hvalue
        split at hraw
        · cases hraw
          exact value?_str hvalue
        · cases hraw
      · cases hraw
    · cases h
  · cases h

end Polystore.Json
