import Mathlib
import Polystore.Text.Basic

/-! # Trimming and letter case

Blanks at the ends of a text, and which characters a change of letter case leads to. -/

namespace Polystore.Text
set_option autoImplicit false

/-! ## Trimming -/

theorem toList_trim (s : String) : (trim s).toList = trimChars s.toList := String.toList_ofList

theorem notBlank_of_all {cs : List Char} (h : cs.all (!isBlank ·) = true) :
    ∀ c ∈ cs, isBlank c = false := fun c hc => by
  rw [← Bool.not_eq_true']
  exact List.all_eq_true.mp h c hc

theorem dropWhile_isBlank {cs : List Char} (h : ∀ c ∈ cs, isBlank c = false) :
    cs.dropWhile isBlank = cs := by
  cases cs with
  | nil => rfl
  | cons c cs => rw [List.dropWhile_cons, h c List.mem_cons_self, if_neg Bool.false_ne_true]

theorem trimChars_of_all {cs : List Char} (h : ∀ c ∈ cs, isBlank c = false) :
    trimChars cs = cs := by
  have hreverse : ∀ c ∈ cs.reverse, isBlank c = false := fun c hc => h c (List.mem_reverse.mp hc)
  rw [trimChars, trimStartChars, dropWhile_isBlank h, trimEndChars, dropWhile_isBlank hreverse,
    List.reverse_reverse]

theorem trim_of_all {s : String} (h : ∀ c ∈ s.toList, isBlank c = false) : trim s = s := by
  rw [trim, trimChars_of_all h, String.ofList_toList]

theorem trimEndChars_trimChars (cs : List Char) : trimEndChars (trimChars cs) = trimChars cs :=
  List.rdropWhile_idempotent isBlank _

theorem trimStartChars_trimChars (cs : List Char) :
    trimStartChars (trimChars cs) = trimChars cs := by
  obtain ⟨rest, hrest⟩ : trimChars cs <+: trimStartChars cs := List.rdropWhile_prefix isBlank _
  have hfirst := List.dropWhile_eq_self_iff.mp (List.dropWhile_idempotent (p := isBlank) cs)
  apply List.dropWhile_eq_self_iff.mpr
  cases htrim : trimChars cs with
  | nil => exact nofun
  | cons c r =>
    intro _
    rw [htrim] at hrest
    have hcons : cs.dropWhile isBlank = c :: (r ++ rest) := hrest.symm
    rw [hcons] at hfirst
    exact hfirst (Nat.succ_pos _)

/-- What was trimmed has nothing more to trim. -/
theorem trimChars_trimChars (cs : List Char) : trimChars (trimChars cs) = trimChars cs := by
  rw [trimChars, trimStartChars_trimChars, trimEndChars_trimChars]

theorem trim_trim (s : String) : trim (trim s) = trim s := by
  rw [trim, toList_trim, trimChars_trimChars]
  rfl

theorem trimChars_eq_nil_iff {cs : List Char} : trimChars cs = [] ↔ ∀ c ∈ cs, isBlank c = true := by
  rw [trimChars, trimStartChars, trimEndChars, List.reverse_eq_nil_iff, List.dropWhile_eq_nil_iff]
  constructor
  · intro h
    apply List.dropWhile_eq_nil_iff.mp
    by_contra hne
    have hfirst := h _ (List.mem_reverse.mpr (List.head_mem hne))
    rw [List.head_dropWhile_not isBlank hne] at hfirst
    cases hfirst
  · intro h c hc
    exact h c ((List.dropWhile_sublist isBlank).mem (List.mem_reverse.mp hc))

theorem isEmpty_trim (s : String) : (trim s).isEmpty = isBlankText s := by
  rw [Bool.eq_iff_iff, String.isEmpty_iff, ← String.toList_eq_nil_iff, toList_trim,
    trimChars_eq_nil_iff, isBlankText, List.all_eq_true]

theorem isBlankText_eq_false {s : String} :
    isBlankText s = false ↔ ∃ c ∈ s.toList, isBlank c = false := by
  simp [isBlankText]

theorem isBlank_of_visible {c : Char} (hlow : 33 ≤ c.toNat) (hhigh : c.toNat ≤ 126) :
    isBlank c = false := by
  rw [← Bool.not_eq_true]
  intro h
  unfold isBlank at h
  simp only [Bool.or_eq_true, Bool.and_eq_true, decide_eq_true_eq, beq_iff_eq] at h
  omega

theorem toNat_of_isDigit {c : Char} (h : c.isDigit = true) : 48 ≤ c.toNat ∧ c.toNat ≤ 57 := by
  simpa [Char.isDigit, UInt32.le_iff_toNat_le, ← Char.toNat_val] using h

theorem isBlank_of_isDigit {c : Char} (h : c.isDigit = true) : isBlank c = false := by
  obtain ⟨hlow, hhigh⟩ := toNat_of_isDigit h
  exact isBlank_of_visible (by omega) (by omega)

/-! ## Letter case -/

theorem eq_of_toLower {c d : Char} (h : c.toLower = d) (hd : d.isLower = false) : c = d := by
  have hupper : ¬c.isUpper = true := by
    intro hc
    have halpha : c.toLower.isLower = c.isAlpha := Char.isLower_toLower_eq_isAlpha c
    rw [h, hd, Char.isAlpha, hc, Bool.true_or] at halpha
    cases halpha
  rw [← h, Char.toLower_eq_of_not_isUpper hupper]

theorem toNat_of_isUpper {c : Char} (h : c.isUpper = true) : 65 ≤ c.toNat ∧ c.toNat ≤ 90 := by
  simpa [Char.isUpper, UInt32.le_iff_toNat_le, ← Char.toNat_val] using h

theorem isBlank_toLower (c : Char) : isBlank c.toLower = isBlank c := by
  by_cases hupper : c.isUpper = true
  · obtain ⟨hlow, hhigh⟩ := toNat_of_isUpper hupper
    have hlower : c.toLower.toNat = c.toNat + 32 := by
      rw [Char.toLower_eq_of_isUpper hupper, Char.toNat_ofNat, if_pos (.inl (by omega))]
    rw [isBlank_of_visible (by omega) (by omega), isBlank_of_visible (by omega) (by omega)]
  · rw [Char.toLower_eq_of_not_isUpper hupper]

theorem ascii_of_toLower {c : Char} (h : c.toLower.toNat < 0x80) : c.toNat < 0x80 := by
  by_cases hupper : c.isUpper = true
  · have hletter := toNat_of_isUpper hupper
    omega
  · rwa [Char.toLower_eq_of_not_isUpper hupper] at h

theorem upperAscii_of_lowerAscii {s t : String} (h : lowerAscii s = lowerAscii t) :
    upperAscii s = upperAscii t := by
  have hupper : ∀ s : String, upperAscii s = upperAscii (lowerAscii s) := by
    intro s
    simp only [upperAscii, lowerAscii, String.toList_ofList, List.map_map, Function.comp_def,
      Char.toUpper_toLower_eq_toUpper]
  rw [hupper s, h, ← hupper t]

theorem trim_of_lowerAscii {s t : String} (h : lowerAscii s = lowerAscii t)
    (ht : t.toList.all (!isBlank ·) = true) : trim s = s := by
  have hchars : s.toList.map Char.toLower = t.toList.map Char.toLower := String.ofList_injective h
  refine trim_of_all fun c hc => ?_
  have hlower : c.toLower ∈ t.toList.map Char.toLower := by
    rw [← hchars]
    exact List.mem_map_of_mem hc
  obtain ⟨d, hd, hcd⟩ := List.mem_map.mp hlower
  rw [← isBlank_toLower, ← hcd, isBlank_toLower]
  exact notBlank_of_all ht d hd

/-- Lower case of ASCII text is that of its letters. -/
theorem lowerFrom_ascii {before cs : List Char} (h : ∀ c ∈ cs, c.toNat < 0x80) :
    lowerFrom before cs = cs.map Char.toLower := by
  induction cs generalizing before with
  | nil => rfl
  | cons c cs ih =>
    obtain ⟨hc, hcs⟩ := List.forall_mem_cons.mp h
    have hsigma : (c == 'Σ') = false := by
      rw [beq_eq_false_iff_ne]
      rintro rfl
      revert hc
      decide
    rw [lowerFrom, hsigma, if_neg Bool.false_ne_true, lowerChar, if_pos hc, ih hcs]
    rfl

end Polystore.Text
