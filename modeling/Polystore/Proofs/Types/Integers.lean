import Polystore.Proofs.Number.Bounds
import Polystore.Proofs.Number.Rounding
import Polystore.Proofs.Types.Settling

/-! # Conversions to integers

A value that stands for an integer converts to it, or to nothing where the type is too narrow for
it. Beyond 64 bits a double stands for the nearest integer of 64 bits, and so does a text that is
read as a double: `long` gives that one, and `int` nothing. -/

namespace Polystore
set_option autoImplicit false

namespace Number

/-! ## Numerals -/

/-- At least one decimal digit, and nothing else. -/
def Digits (ds : List Char) : Prop := ds ≠ [] ∧ ∀ c ∈ ds, c.isDigit = true

/-- The number of decimal digits, of which the last counts the ones. -/
def decimalValue (ds : List Char) : Nat := Nat.ofDigits 10 (ds.reverse.map fun c => c.toNat - 48)

/-- Decimal digits with an optional sign, and the integer they spell. -/
inductive Numeral : List Char → Int → Prop
  | bare {ds : List Char} (h : Digits ds) : Numeral ds (decimalValue ds)
  | plus {ds : List Char} (h : Digits ds) : Numeral ('+' :: ds) (decimalValue ds)
  | minus {ds : List Char} (h : Digits ds) : Numeral ('-' :: ds) (-decimalValue ds)

theorem digitsValue_eq (ds : List Char) : digitsValue ds = decimalValue ds := by
  induction ds using List.reverseRecOn with
  | nil => rfl
  | append_singleton ds d ih =>
    have hlast : digitsValue (ds ++ [d]) = 10 * digitsValue ds + (d.toNat - 48) := by
      unfold digitsValue
      rw [List.foldl_append]
      rfl
    unfold decimalValue at ih ⊢
    rw [hlast, ih, List.reverse_append, List.reverse_singleton, List.singleton_append, List.map_cons,
      Nat.ofDigits_cons, Nat.add_comm]

section
variable {ds cs : List Char} {s : String} {n : Int}

theorem natOfChars?_of_digits (h : Digits ds) : natOfChars? ds = some (decimalValue ds) := by
  have hall : ds.all Char.isDigit = true := List.all_eq_true.mpr h.2
  unfold natOfChars?
  rw [List.isEmpty_eq_false_iff.mpr h.1, hall, digitsValue_eq]
  rfl

theorem splitSign_of_digits (h : Digits ds) : splitSign ds = (false, ds) := by
  obtain ⟨hne, hdigits⟩ := h
  cases ds with
  | nil => exact absurd rfl hne
  | cons d ds =>
    have hd : d.isDigit = true := hdigits d List.mem_cons_self
    unfold splitSign
    split
    · cases ‹_›
      exact absurd hd (by decide)
    · cases ‹_›
      exact absurd hd (by decide)
    · rfl

/-- A numeral is a sign and digits. -/
theorem Numeral.splitSign (h : Numeral cs n) : ∃ neg ds, Digits ds ∧
    Number.splitSign cs = (neg, ds) ∧ n = if neg then -(decimalValue ds : Int) else decimalValue ds := by
  cases h with
  | bare h => exact ⟨false, cs, h, splitSign_of_digits h, rfl⟩
  | @plus ds h => exact ⟨false, ds, h, rfl, rfl⟩
  | @minus ds h => exact ⟨true, ds, h, rfl, rfl⟩

theorem Numeral.isEmpty_eq_false (h : Numeral s.toList n) : s.isEmpty = false := by
  rw [← Bool.not_eq_true, String.isEmpty_iff]
  rintro rfl
  obtain ⟨neg, ds, hds, hsplit, -⟩ := h.splitSign
  cases hsplit
  exact hds.1 rfl

theorem int?_of_numeral (h : Numeral s.toList n) : int? s = some n := by
  obtain ⟨neg, ds, hds, hsplit, rfl⟩ := h.splitSign
  unfold int?
  rw [hsplit]
  dsimp only
  rw [natOfChars?_of_digits hds]
  rfl

theorem toLower_of_isDigit {c : Char} (h : c.isDigit = true) : c.toLower = c := by
  refine Char.toLower_eq_of_not_isUpper fun hupper => ?_
  have hlow : 65 ≤ c.toNat := (Text.toNat_of_isUpper hupper).1
  have hhigh : c.toNat ≤ 57 := (Text.toNat_of_isDigit h).2
  omega

/-- Digits are none of the words for doubles that are not finite. -/
theorem not_word_of_digits (h : Digits ds) {w : String}
    (hw : w.toList.head?.any Char.isDigit = false) :
    ¬(Text.lowerAscii (String.ofList ds) == w) = true := by
  obtain ⟨hne, hdigits⟩ := h
  rw [beq_iff_eq]
  rintro rfl
  cases ds with
  | nil => exact absurd rfl hne
  | cons d ds =>
    have hd : d.isDigit = true := hdigits d List.mem_cons_self
    rw [Text.lowerAscii, String.toList_ofList, String.toList_ofList, List.map_cons,
      toLower_of_isDigit hd, List.head?_cons, Option.any_some, hd] at hw
    cases hw

theorem decimal?_of_digits (h : Digits ds) : decimal? ds = some (nearest (decimalValue ds) 0) := by
  have htake : ds.takeWhile Char.isDigit = ds := List.takeWhile_eq_self_iff.mpr h.2
  have hdrop : ds.dropWhile Char.isDigit = [] := List.dropWhile_eq_nil_iff.mpr h.2
  have hne : ds.isEmpty = false := List.isEmpty_eq_false_iff.mpr h.1
  unfold decimal?
  dsimp only
  rw [hdrop]
  dsimp only
  rw [htake, hne, List.append_nil, digitsValue_eq]
  rfl

/-- A numeral that is read as a double is the one that is nearest to its digits. -/
theorem Numeral.double? (h : Numeral s.toList n) : ∃ neg k,
    Number.double? s = some (signed neg (nearest k 0)) ∧ n = if neg then -(k : Int) else k := by
  obtain ⟨neg, ds, hds, hsplit, hn⟩ := h.splitSign
  refine ⟨neg, decimalValue ds, ?_, hn⟩
  unfold Number.double?
  rw [hsplit]
  dsimp only
  rw [if_neg, if_neg (not_word_of_digits hds (by decide)),
    decimal?_of_digits hds]
  · rfl
  · rw [Bool.or_eq_true, not_or]
    exact ⟨not_word_of_digits hds (by decide), not_word_of_digits hds (by decide)⟩

end

theorem digits_repr (n : Nat) : Digits n.repr.toList := by
  rw [Nat.toList_repr]
  exact ⟨Nat.toDigits_ne_nil, fun c hc => Nat.isDigit_of_mem_toDigits (by omega) (by omega) hc⟩

theorem decimalValue_repr (n : Nat) : decimalValue n.repr.toList = n := by
  rw [← digitsValue_eq, Nat.toList_repr]
  exact Nat.ofDigitChars_toDigits (by omega) (by omega)

/-- An integer is written as a numeral. -/
theorem numeral_repr (n : Int) : Numeral n.repr.toList n := by
  cases n with
  | ofNat m =>
    have h := Numeral.bare (digits_repr m)
    rwa [decimalValue_repr] at h
  | negSucc m =>
    have hrepr : (Int.negSucc m).repr.toList = '-' :: (m + 1).repr.toList := String.toList_append
    have h := Numeral.minus (digits_repr (m + 1))
    rw [decimalValue_repr] at h
    rw [hrepr]
    exact h

theorem notBlank_of_numeral {cs : List Char} {n : Int} (h : Numeral cs n) :
    ∀ c ∈ cs, Text.isBlank c = false := by
  cases h with
  | bare h => exact fun c hc => Text.isBlank_of_isDigit (h.2 c hc)
  | plus h => exact List.forall_mem_cons.mpr ⟨by decide, fun c hc => Text.isBlank_of_isDigit (h.2 c hc)⟩
  | minus h => exact List.forall_mem_cons.mpr ⟨by decide, fun c hc => Text.isBlank_of_isDigit (h.2 c hc)⟩

end Number

/-! ## Integers of values -/

/-- The integers that values stand for. -/
inductive Value.Denotes : Value → Int → Prop
  | int (n : Int32) : Denotes (.int n) n.toInt
  | long (n : Int64) : Denotes (.long n) n.toInt
  | double {d : Float} {n : Int} (h : Double.value? d = some (n : ℚ)) : Denotes (.double d) n
  | str {s : String} {n : Int} (h : Number.Numeral (Text.trim s).toList n) : Denotes (.str s) n

theorem Value.denotes_repr (n : Int) : (Value.str n.repr).Denotes n := by
  have hnumeral := Number.numeral_repr n
  apply Value.Denotes.str
  rwa [Text.trim_of_all (Number.notBlank_of_numeral hnumeral)]

/-- Texts of integers beyond every double. -/
def Value.Unreadable (x : Value) (n : Int) : Prop := x.kind = .str ∧ Double.overflow ≤ n.natAbs

namespace Scalar

variable {x : Value} {n : Int}

theorem integer_double {d : Float} (h : Double.value? d = some (n : ℚ)) :
    integer (.double d) = .ok (some (Number.clamp64 n)) := by
  have hintegral : Double.integral? d = some n := (Double.integral?_eq_some d).mpr h
  unfold integer Value.int64?
  dsimp only
  rw [hintegral]
  rfl

/-- A text is read as an integer of 64 bits, and beyond them as a double. -/
theorem integer_str {s : String} (h : Number.Numeral (Text.trim s).toList n) :
    (n.natAbs < Double.overflow → integer (.str s) = .ok (some (Number.clamp64 n))) ∧
      (Double.overflow ≤ n.natAbs → ∃ e, integer (.str s) = .error e) := by
  have hint64 : Number.int64? (Text.trim s) =
      if Number.fits64 n then some (Int64.ofInt n) else none := by
    rw [Number.int64?, Number.int?_of_numeral h]
    rfl
  unfold integer
  dsimp only
  rw [if_neg (by rw [h.isEmpty_eq_false]; decide), hint64]
  by_cases hfits : Number.fits64 n = true
  · obtain ⟨hlow, hhigh⟩ := Number.fits64_iff.mp hfits
    have hread : n.natAbs < Double.overflow :=
      Nat.lt_of_lt_of_le (show n.natAbs < 2 ^ 64 by omega) Double.pow_64_le_overflow
    rw [if_pos hfits, Number.clamp64_of_fits hfits]
    exact ⟨fun _ => rfl, fun hover => absurd hread (Nat.not_lt.mpr hover)⟩
  · obtain ⟨neg, k, hdouble, hn⟩ := h.double?
    have habs : n.natAbs = k := by
      rw [hn]
      cases neg <;> simp
    have hlarge : 2 ^ 63 ≤ k := by
      rw [Number.fits64_iff] at hfits
      omega
    have hvalue := Double.value?_nearest neg (Nat.le_trans (by decide) hlarge)
    rw [if_neg hfits, hdouble, habs]
    dsimp only [Option.bind_some]
    constructor
    · intro hread
      rw [if_pos hread] at hvalue
      rw [(Double.integral?_eq_some _).mpr hvalue, hn,
        Number.clamp64_signed neg hlarge (Double.rounded_large hlarge)]
    · intro hover
      rw [if_neg (Nat.not_lt.mpr hover)] at hvalue
      rw [Double.integral?_eq_none hvalue]
      exact ⟨_, rfl⟩

/-- A value that stands for an integer is read as the nearest one of 64 bits. -/
theorem integer_denoted (h : x.Denotes n) :
    (¬x.Unreadable n → integer x = .ok (some (Number.clamp64 n))) ∧
      (x.Unreadable n → ∃ e, integer x = .error e) := by
  cases h with
  | int n =>
    have hlow : -2 ^ 31 ≤ n.toInt := n.le_toInt
    have hhigh : n.toInt < 2 ^ 31 := n.toInt_lt
    rw [Number.clamp64_of_fits (Number.fits64_iff.mpr (by omega))]
    exact ⟨fun _ => rfl, fun hunread => nomatch hunread.1⟩
  | long n =>
    rw [Number.clamp64_of_fits (Number.fits64_toInt n), Int64.ofInt_toInt]
    exact ⟨fun _ => rfl, fun hunread => nomatch hunread.1⟩
  | double h => exact ⟨fun _ => integer_double h, fun hunread => nomatch hunread.1⟩
  | str h =>
    obtain ⟨hread, hunread⟩ := integer_str h
    exact ⟨fun hreadable => hread (by unfold Value.Unreadable at hreadable; simpa [Value.kind] using hreadable),
      fun hbeyond => hunread hbeyond.2⟩

theorem toLong_denoted (h : x.Denotes n) :
    (¬x.Unreadable n → toLong x = .ok (.long (Number.clamp64 n))) ∧
      (x.Unreadable n → ∃ e, toLong x = .error e) := by
  obtain ⟨hread, hunread⟩ := integer_denoted h
  unfold toLong
  refine ⟨fun hx => by rw [hread hx]; rfl, fun hx => ?_⟩
  obtain ⟨e, he⟩ := hunread hx
  rw [he]
  exact ⟨e, rfl⟩

theorem toInt_denoted (h : x.Denotes n) :
    (Number.fits32 n = true → toInt x = .ok (.int (Int32.ofInt n))) ∧
      (¬Number.fits32 n = true → ∃ e, toInt x = .error e) := by
  obtain ⟨hread, hunread⟩ := integer_denoted h
  unfold toInt
  by_cases hx : x.Unreadable n
  · obtain ⟨e, he⟩ := hunread hx
    have hover : Double.overflow ≤ n.natAbs := hx.2
    have hbound := Double.pow_64_le_overflow
    have hfits : ¬Number.fits32 n = true := by
      rw [Number.fits32_iff]
      omega
    rw [he]
    exact ⟨fun hn => absurd hn hfits, fun _ => ⟨e, rfl⟩⟩
  · rw [hread hx]
    dsimp only
    rw [Number.fits32_clamp64]
    refine ⟨fun hn => ?_, fun hn => ⟨_, if_neg hn⟩⟩
    rw [if_pos hn, Number.toInt_clamp64_of_fits (Number.fits64_of_fits32 hn)]

/-- The conversions of a scalar type but `json` are coercions of what is no JSON payload. -/
theorem converted {s : Scalar} (hs : s ≠ .json) (hpayload : ∀ j, x ≠ .json j)
    (hnull : x.isNull = false) {f : Value → Except CodecError Value} (hf : f ∈ [s.encode, s.decode]) :
    (∀ v, s.coerceTo x = .ok v → f x = .ok v) ∧
      ∀ reason, s.coerceTo x = .error reason → ∃ e, f x = .error e := by
  have hunwrap : s.unwrap x = x := by
    unfold unwrap
    split
    · exact absurd rfl (hpayload _)
    · rfl
  have hdecode : (∀ v, s.coerceTo x = .ok v → s.decode x = .ok v) ∧
      ∀ reason, s.coerceTo x = .error reason →
        s.decode x = .error (.decode s.id x.kind.text reason) := by
    unfold decode
    dsimp only
    rw [hunwrap, hnull]
    exact ⟨fun v hv => by rw [hv]; rfl, fun reason hreason => by rw [hreason]; rfl⟩
  rw [List.mem_pair] at hf
  obtain rfl | rfl := hf
  · refine ⟨fun v hv => (encode_eq_ok hs).mpr (hdecode.1 v hv), fun reason hreason => ?_⟩
    unfold encode
    rw [if_neg hs, hdecode.2 reason hreason]
    exact ⟨_, rfl⟩
  · exact ⟨hdecode.1, fun reason hreason => ⟨_, hdecode.2 reason hreason⟩⟩

end Scalar

theorem Value.Denotes.scalar {x : Value} {n : Int} (h : x.Denotes n) :
    (∀ j, x ≠ .json j) ∧ x.isNull = false := by
  cases h <;> exact ⟨nofun, rfl⟩

theorem TypeTable.convert_scalar {t : TypeTable} (ht : t.Own) {s : Scalar} (hs : s ≠ .json)
    {convert : String → Value → Except CodecError Value} (h : convert ∈ [t.encode, t.decode]) :
    ∃ f ∈ [s.encode, s.decode], ∀ x, convert s.id x = f x := by
  obtain ⟨-, hencode, hdecode⟩ :=
    TypeTable.get_storable ht (Storable.scalar hs).parse_typeId (Storable.scalar hs)
  rw [List.mem_pair] at h
  obtain rfl | rfl := h
  · exact ⟨s.encode, List.mem_cons_self, hencode⟩
  · exact ⟨s.decode, List.mem_cons_of_mem _ List.mem_cons_self, hdecode⟩

/-- Integers in the range of a type are converted to themselves, and `int` has no value for others.
`long` cuts all those off that can be read, and has no value only for texts beyond every double. -/
theorem integers_convert (dialect : String) {x : Value} {n : Int} (h : x.Denotes n) :
    let t := TypeTable.ofDialect dialect
    ∀ convert ∈ [t.encode, t.decode],
      (∀ m : Int32, m.toInt = n → convert "int" x = .ok (.int m)) ∧
      ((∀ m : Int32, m.toInt ≠ n) → ∃ e, convert "int" x = .error e) ∧
      (∀ m : Int64, m.toInt = n → convert "long" x = .ok (.long m)) ∧
      ((∀ m : Int64, m.toInt ≠ n) → x.Unreadable n → ∃ e, convert "long" x = .error e) ∧
      ((∀ m : Int64, m.toInt ≠ n) → ¬x.Unreadable n →
        convert "long" x = .ok (.long (if n < 0 then Int64.minValue else Int64.maxValue))) := by
  intro t convert hconvert
  obtain ⟨hpayload, hnull⟩ := h.scalar
  obtain ⟨toInt, hmemInt, hint⟩ :=
    TypeTable.convert_scalar (TypeTable.own_ofDialect dialect) (s := .int) nofun hconvert
  obtain ⟨toLong, hmemLong, hlong⟩ :=
    TypeTable.convert_scalar (TypeTable.own_ofDialect dialect) (s := .long) nofun hconvert
  change ∀ x, convert "int" x = toInt x at hint
  change ∀ x, convert "long" x = toLong x at hlong
  rw [hint, hlong]
  obtain ⟨hintOk, hintError⟩ := Scalar.converted (s := .int) nofun hpayload hnull hmemInt
  obtain ⟨hlongOk, hlongError⟩ := Scalar.converted (s := .long) nofun hpayload hnull hmemLong
  obtain ⟨hfits, hwide⟩ := Scalar.toInt_denoted h
  obtain ⟨hread, hunread⟩ := Scalar.toLong_denoted h
  refine ⟨?_, ?_, ?_, ?_, ?_⟩
  · rintro m rfl
    have hm := hfits (Number.fits32_toInt m)
    rw [Int32.ofInt_toInt] at hm
    exact hintOk _ hm
  · intro hnone
    obtain ⟨reason, hreason⟩ := hwide fun hn => by
      obtain ⟨hlow, hhigh⟩ := Number.fits32_iff.mp hn
      exact hnone _ (Int32.toInt_ofInt_of_le hlow hhigh)
    exact hintError reason hreason
  · rintro m rfl
    have hreadable : ¬x.Unreadable m.toInt := by
      have hbound : 2 ^ 63 < Double.overflow := by decide +kernel
      have hlow := m.le_toInt
      have hhigh := m.toInt_lt
      intro hx
      have hover := hx.2
      omega
    have hm := hread hreadable
    rw [Number.clamp64_of_fits (Number.fits64_toInt m),
      Int64.ofInt_toInt] at hm
    exact hlongOk _ hm
  · intro _ hx
    obtain ⟨reason, hreason⟩ := hunread hx
    exact hlongError reason hreason
  · intro hnone hx
    have hbeyond : n < -2 ^ 63 ∨ 2 ^ 63 ≤ n := by
      by_contra hn
      exact hnone (Int64.ofInt n) (Int64.toInt_ofInt_of_le (by omega) (by omega))
    refine hlongOk _ ((hread hx).trans (congrArg (Except.ok ∘ Value.long) ?_))
    obtain hlow | hhigh := hbeyond
    · rw [Number.clamp64_of_le (by omega), if_pos (by omega)]
    · rw [Number.clamp64_of_ge hhigh, if_neg (by omega)]

/-- A text of one more than the greatest integer of 64 bits is converted to that integer. -/
theorem beyondLong_converts :
    let t := TypeTable.ofDialect "postgres"
    let x := Value.str " +9223372036854775808"
    x.Denotes 9223372036854775808 ∧ (∃ e, t.decode "int" x = .error e) ∧
      t.decode "long" x = .ok (.long Int64.maxValue) := by
  intro t x
  have hnumeral : Number.Numeral (Text.trim " +9223372036854775808").toList 9223372036854775808 := by
    have hdigits : Number.Digits "9223372036854775808".toList :=
      ⟨by decide, List.all_eq_true.mp (by decide)⟩
    have hvalue : (Number.decimalValue "9223372036854775808".toList : Int) = 9223372036854775808 := by
      decide +kernel
    have htrim : (Text.trim " +9223372036854775808").toList = '+' :: "9223372036854775808".toList := by
      decide +kernel
    rw [htrim, ← hvalue]
    exact .plus hdigits
  have h : x.Denotes 9223372036854775808 := .str hnumeral
  obtain ⟨-, hint, -, -, hlong⟩ := integers_convert "postgres" h t.decode (by simp [t])
  refine ⟨h, hint fun m hm => ?_, hlong (fun m hm => ?_) ?_⟩
  · have := m.toInt_lt
    omega
  · have := m.toInt_lt
    omega
  · have hreadable : ¬Double.overflow ≤ (9223372036854775808 : Int).natAbs := by decide +kernel
    exact fun hx => hreadable hx.2

end Polystore
