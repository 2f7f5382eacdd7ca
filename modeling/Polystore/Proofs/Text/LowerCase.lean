import Polystore.Proofs.Text.Trimming

/-! # Lower case

Lower case is reached in one step: no character of a lower-cased text has another lower-case form,
and none of them is a blank or a mark that was not there before. -/

namespace Polystore.Text
set_option autoImplicit false

/-! ## Moved runs -/

namespace Run

def shift (r : Run) (d : Int) : Run := ⟨((r.lo : Int) + d).toNat, ((r.hi : Int) + d).toNat, r.step⟩

/-- One of the runs ends before the other begins, or the first keeps to the gaps of the second. -/
def apart (a b : Run) : Bool :=
  Nat.blt a.hi b.lo || Nat.blt b.hi a.lo ||
    (Nat.beq b.step 2 && (Nat.beq a.step 2 || Nat.beq a.lo a.hi) && Nat.beq ((a.lo + b.lo) % 2) 1)

section
variable {a b r : Run} {n : Nat}

theorem has_iff : r.has n = true ↔ (r.lo ≤ n ∧ n ≤ r.hi) ∧ (n - r.lo) % r.step = 0 := by
  simp [has]

theorem has_step_one {lo hi : Nat} : (⟨lo, hi, 1⟩ : Run).has n = false ↔ n < lo ∨ hi < n := by
  rw [← Bool.not_eq_true, has_iff]
  simp only [Nat.mod_one, and_true]
  omega

theorem has_shift {d : Int} (hd : 0 ≤ (r.lo : Int) + d) (h : r.has n = true) :
    (r.shift d).has ((n : Int) + d).toNat = true := by
  obtain ⟨⟨hlo, hhi⟩, hstep⟩ := has_iff.mp h
  have hdistance : ((n : Int) + d).toNat - ((r.lo : Int) + d).toNat = n - r.lo := by omega
  rw [has_iff, shift, hdistance]
  dsimp only
  omega

theorem not_has_of_apart (h : a.apart b = true) (hn : a.has n = true) : b.has n = false := by
  rw [← Bool.not_eq_true]
  intro hother
  obtain ⟨⟨hlo, hhi⟩, hstep⟩ := has_iff.mp hn
  obtain ⟨⟨hlo', hhi'⟩, hstep'⟩ := has_iff.mp hother
  simp only [apart, Bool.or_eq_true, Bool.and_eq_true, Nat.blt_eq, Nat.beq_eq] at h
  obtain (h | h) | ⟨⟨htwo, hown⟩, hodd⟩ := h
  · omega
  · omega
  · rw [htwo] at hstep'
    obtain htwo' | hone := hown
    · rw [htwo'] at hstep
      omega
    · omega

end

end Run

/-- The runs that no lower-case form is in: those with a lower case of their own, all of ASCII but
one letter, blanks, and what is no character. -/
def avoidedRuns : List Run :=
  lowerRuns.map (·.1) ++
    [⟨0, 0x6a, 1⟩, ⟨0x6c, 0x7f, 1⟩, ⟨0x85, 0x85, 1⟩, ⟨0xa0, 0xa0, 1⟩, ⟨0x130, 0x130, 1⟩,
      ⟨0x1680, 0x1680, 1⟩, ⟨0x2000, 0x200a, 1⟩, ⟨0x2028, 0x2029, 1⟩, ⟨0x202f, 0x202f, 1⟩,
      ⟨0x205f, 0x205f, 1⟩, ⟨0x3000, 0x3000, 1⟩, ⟨0xd800, 0xdfff, 1⟩]

theorem lowerRuns_avoid : lowerRuns.all (fun (r, d) =>
    decide (0 ≤ (r.lo : Int) + d) && decide ((r.hi : Int) + d < 0x110000) &&
      avoidedRuns.all (r.shift d).apart) = true := by
  decide +kernel

/-- The lower-case form of a character of the table. -/
theorem lowerRuns_image {r : Run} {d : Int} {c : Char} (hmem : (r, d) ∈ lowerRuns)
    (hc : r.has c.toNat = true) :
    ∀ run ∈ avoidedRuns, run.has (Char.ofNat ((c.toNat : Int) + d).toNat).toNat = false := by
  have h := List.all_eq_true.mp lowerRuns_avoid _ hmem
  simp only [Bool.and_eq_true, decide_eq_true_eq, List.all_eq_true] at h
  obtain ⟨⟨hlow, hhigh⟩, hapart⟩ := h
  have hshift := Run.has_shift hlow hc
  have hsurrogate := Run.not_has_of_apart (hapart ⟨0xd800, 0xdfff, 1⟩ (by simp [avoidedRuns]))
    hshift
  have hvalid : (((c.toNat : Int) + d).toNat).isValidChar := by
    obtain ⟨⟨hlo, hhi⟩, -⟩ := Run.has_iff.mp hc
    rw [Run.has_step_one] at hsurrogate
    simp only [Nat.isValidChar]
    omega
  intro run hrun
  rw [Char.toNat_ofNat, if_pos hvalid]
  exact Run.not_has_of_apart (hapart run hrun) hshift

/-! ## Characters -/

/-- What is in the lower-case form of a character: it stays as it is, is blank only if the character
was, and is no new ASCII character but a letter. -/
structure Lowered (c d : Char) : Prop where
  settled : lowerChar d = [d] ∧ d ≠ 'Σ'
  blank : isBlank d = true → isBlank c = true
  same : d.toNat < 0x80 → d.isLower = false → c = d

theorem lowerChar_ascii {c : Char} (h : c.toNat < 0x80) : lowerChar c = [c.toLower] := if_pos h

theorem toLower_ascii {c : Char} (h : c.toNat < 0x80) : c.toLower.toNat < 0x80 := by
  by_cases hupper : c.isUpper = true
  · have hletter := toNat_of_isUpper hupper
    rw [Char.toLower_eq_of_isUpper hupper, Char.toNat_ofNat, if_pos (.inl (by omega))]
    omega
  · rwa [Char.toLower_eq_of_not_isUpper hupper]

theorem ne_sigma_of_ascii {c : Char} (h : c.toNat < 0x80) : c ≠ 'Σ' := by
  rintro rfl
  revert h
  decide

theorem Lowered.of_ascii {c : Char} (h : c.toNat < 0x80) : Lowered c c.toLower where
  settled := by
    have hlower := toLower_ascii h
    exact ⟨by rw [lowerChar_ascii hlower, Char.toLower_toLower_eq_toLower], ne_sigma_of_ascii hlower⟩
  blank := by
    rw [isBlank_toLower]
    exact id
  same _ hother := eq_of_toLower rfl hother

theorem lowerRuns_find? {n : Nat} (h : ∀ run ∈ avoidedRuns, run.has n = false) :
    lowerRuns.find? (·.1.has n) = none := by
  rw [List.find?_eq_none]
  intro entry hentry
  rw [h entry.1 (List.mem_append_left _ (List.mem_map_of_mem hentry))]
  exact Bool.false_ne_true

theorem Lowered.of_run {r : Run} {d : Int} {c : Char} (hmem : (r, d) ∈ lowerRuns)
    (hc : r.has c.toNat = true) : Lowered c (Char.ofNat ((c.toNat : Int) + d).toNat) := by
  have havoids := lowerRuns_image hmem hc
  generalize Char.ofNat ((c.toNat : Int) + d).toNat = image at havoids
  have hfind := lowerRuns_find? havoids
  have hmarks := fun run hrun => havoids run (List.mem_append_right (lowerRuns.map (·.1)) hrun)
  simp only [List.forall_mem_cons, List.not_mem_nil, false_imp_iff, implies_true, and_true,
    Run.has_step_one] at hmarks
  refine ⟨⟨?_, ?_⟩, ?_, ?_⟩
  · by_cases hascii : image.toNat < 0x80
    · have hk : image = 'k' := Char.toNat_inj.mp (show image.toNat = 0x6b by omega)
      rw [hk]
      rfl
    · have hdotted : (image.toNat == 0x130) = false := by
        rw [beq_eq_false_iff_ne]
        omega
      rw [lowerChar, if_neg hascii, hdotted, if_neg Bool.false_ne_true, hfind]
  · rintro rfl
    revert hfind
    decide +kernel
  · intro hblank
    simp only [isBlank, Bool.or_eq_true, Bool.and_eq_true, decide_eq_true_eq, beq_iff_eq] at hblank
    omega
  · intro hascii hlower
    have hk : image = 'k' := Char.toNat_inj.mp (show image.toNat = 0x6b by omega)
    exact absurd hlower (by rw [hk]; decide)

theorem lowered_of_mem {c d : Char} (h : d ∈ lowerChar c) : Lowered c d := by
  by_cases hascii : c.toNat < 0x80
  · rw [lowerChar_ascii hascii, List.mem_singleton] at h
    exact h ▸ Lowered.of_ascii hascii
  rw [lowerChar, if_neg hascii] at h
  by_cases hdotted : (c.toNat == 0x130) = true
  · -- a capital i with a dot is the one character with two in lower case
    rw [if_pos hdotted, List.mem_cons, List.mem_singleton] at h
    obtain rfl | rfl := h
    · exact ⟨by decide +kernel, fun hblank => absurd hblank (by decide),
        fun _ hlower => absurd hlower (by decide)⟩
    · exact ⟨by decide +kernel, fun hblank => absurd hblank (by decide),
        fun hlow _ => absurd hlow (by decide)⟩
  rw [if_neg hdotted] at h
  cases hfind : lowerRuns.find? (·.1.has c.toNat) with
  | some entry =>
    rw [hfind] at h
    obtain rfl := List.mem_singleton.mp h
    exact .of_run (List.mem_of_find?_eq_some hfind)
      (List.find?_some (p := fun entry : Run × Int => entry.1.has c.toNat) hfind)
  | none =>
    rw [hfind] at h
    obtain rfl := List.mem_singleton.mp h
    refine ⟨⟨?_, ?_⟩, id, fun _ _ => rfl⟩
    · rw [lowerChar, if_neg hascii, if_neg hdotted, hfind]
    · rintro rfl
      revert hfind
      decide +kernel

theorem lowerChar_ne_nil (c : Char) : lowerChar c ≠ [] := by
  unfold lowerChar
  split_ifs
  · exact List.cons_ne_nil _ _
  · exact List.cons_ne_nil _ _
  · split <;> exact List.cons_ne_nil _ _

/-! ## Texts -/

/-- The lower-case form of a character between others. -/
def lowerAt (before : List Char) (c : Char) (after : List Char) : List Char :=
  if c == 'Σ' then [if endsWord before after then 'ς' else 'σ'] else lowerChar c

theorem lowerFrom_cons (before : List Char) (c : Char) (cs : List Char) :
    lowerFrom before (c :: cs) = lowerAt before c cs ++ lowerFrom (c :: before) cs := rfl

section
variable {before after cs : List Char} {c d : Char}

theorem lowerAt_ne_nil (before : List Char) (c : Char) (after : List Char) :
    lowerAt before c after ≠ [] := by
  unfold lowerAt
  split
  · exact List.cons_ne_nil _ _
  · exact lowerChar_ne_nil c

theorem lowered_of_mem_lowerAt (h : d ∈ lowerAt before c after) : Lowered c d := by
  unfold lowerAt at h
  split at h
  · rename_i hsigma
    obtain rfl := beq_iff_eq.mp hsigma
    obtain rfl := List.mem_singleton.mp h
    split
    · exact ⟨by decide +kernel, fun hblank => absurd hblank (by decide),
        fun hlow _ => absurd hlow (by decide)⟩
    · exact ⟨by decide +kernel, fun hblank => absurd hblank (by decide),
        fun hlow _ => absurd hlow (by decide)⟩
  · exact lowered_of_mem h

theorem lowered_of_mem_lowerFrom (h : d ∈ lowerFrom before cs) : ∃ c ∈ cs, Lowered c d := by
  induction cs generalizing before with
  | nil => cases h
  | cons c cs ih =>
    rw [lowerFrom_cons, List.mem_append] at h
    obtain h | h := h
    · exact ⟨c, List.mem_cons_self, lowered_of_mem_lowerAt h⟩
    · obtain ⟨c', hc', hlowered⟩ := ih h
      exact ⟨c', List.mem_cons_of_mem _ hc', hlowered⟩

/-- A lower-cased text stays as it is. -/
theorem lowerFrom_of_settled (h : ∀ c ∈ cs, lowerChar c = [c] ∧ c ≠ 'Σ') :
    lowerFrom before cs = cs := by
  induction cs generalizing before with
  | nil => rfl
  | cons c cs ih =>
    obtain ⟨⟨hc, hsigma⟩, hcs⟩ := List.forall_mem_cons.mp h
    have hat : lowerAt before c cs = [c] := by simp [lowerAt, hsigma, hc]
    rw [lowerFrom_cons, hat, ih hcs]
    rfl

theorem lower_lower (s : String) : lower (lower s) = lower s := by
  have hsettled : ∀ d ∈ lowerFrom [] s.toList, lowerChar d = [d] ∧ d ≠ 'Σ' := by
    intro d hd
    obtain ⟨c, -, hlowered⟩ := lowered_of_mem_lowerFrom hd
    exact hlowered.settled
  unfold lower
  rw [String.toList_ofList, lowerFrom_of_settled hsettled]

/-! ## Marks and blanks -/

/-- ASCII characters that are no letters come from themselves. -/
theorem mem_of_mem_lowerFrom (h : d ∈ lowerFrom before cs) (hascii : d.toNat < 0x80)
    (hlower : d.isLower = false) : d ∈ cs := by
  obtain ⟨c, hc, hlowered⟩ := lowered_of_mem_lowerFrom h
  exact hlowered.same hascii hlower ▸ hc

/-- Neither end is blank. -/
def EndsFilled (cs : List Char) : Prop :=
  (∀ c ∈ cs.head?, isBlank c = false) ∧ ∀ c ∈ cs.getLast?, isBlank c = false

theorem dropWhile_isBlank_iff :
    cs.dropWhile isBlank = cs ↔ ∀ c ∈ cs.head?, isBlank c = false := by
  cases cs with
  | nil => simp
  | cons c cs => simp [List.dropWhile_eq_self_iff]

theorem trimChars_eq_self_iff : trimChars cs = cs ↔ EndsFilled cs := by
  have hstart : trimStartChars cs = cs ↔ ∀ c ∈ cs.head?, isBlank c = false := dropWhile_isBlank_iff
  have hend : trimEndChars cs = cs ↔ ∀ c ∈ cs.getLast?, isBlank c = false := by
    rw [trimEndChars, List.reverse_eq_iff, dropWhile_isBlank_iff, List.head?_reverse]
  constructor
  · intro h
    refine ⟨hstart.mp ?_, hend.mp ?_⟩
    · rw [← h, trimStartChars_trimChars]
    · rw [← h, trimEndChars_trimChars]
  · rintro ⟨hhead, hlast⟩
    rw [trimChars, hstart.mpr hhead, hend.mpr hlast]

theorem getLast?_lowerFrom (before : List Char) (hne : cs ≠ []) :
    ∃ c d, cs.getLast? = some c ∧ (lowerFrom before cs).getLast? = some d ∧ Lowered c d := by
  induction cs generalizing before with
  | nil => exact absurd rfl hne
  | cons c cs ih =>
    by_cases hcs : cs = []
    · subst hcs
      have hmem := List.getLast_mem (lowerAt_ne_nil before c [])
      refine ⟨c, _, rfl, ?_, lowered_of_mem_lowerAt hmem⟩
      rw [lowerFrom_cons, lowerFrom, List.append_nil, List.getLast?_eq_some_getLast]
    · obtain ⟨c', d, hlast, hlowered, h⟩ := ih (c :: before) hcs
      refine ⟨c', d, ?_, ?_, h⟩
      · rw [List.getLast?_cons_of_ne_nil hcs, hlast]
      · rw [lowerFrom_cons, List.getLast?_append, hlowered, Option.some_or]

theorem EndsFilled.lowerFrom (h : EndsFilled cs) : EndsFilled (lowerFrom before cs) := by
  have hblank : ∀ {c d : Char}, Lowered c d → isBlank c = false → isBlank d = false := by
    intro c d hlowered hc
    cases hd : isBlank d with
    | false => rfl
    | true => exact hc ▸ (hlowered.blank hd).symm
  cases cs with
  | nil => exact h
  | cons c cs =>
    constructor
    · obtain ⟨d, ds, hat⟩ := List.exists_cons_of_ne_nil
        (lowerAt_ne_nil before c cs)
      have hd : d ∈ lowerAt before c cs := hat ▸ List.mem_cons_self
      have hhead := hblank (lowered_of_mem_lowerAt hd) (h.1 c rfl)
      simp [lowerFrom_cons, hat, hhead]
    · obtain ⟨c', d, hlast, hlowered, hboth⟩ :=
        getLast?_lowerFrom before (List.cons_ne_nil c cs)
      intro e he
      obtain rfl := Option.some.inj (hlowered.symm.trans he)
      exact hblank hboth (h.2 c' hlast)

end

end Polystore.Text
