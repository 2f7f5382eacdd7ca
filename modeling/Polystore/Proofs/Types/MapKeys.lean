import Polystore.Proofs.Documents.EqualityTests
import Polystore.Proofs.Types.Integers

/-! # Keys of maps

The keys of a map are converted from texts and written as texts again. Each entry is converted, and
of the entries whose keys stand for one value the last one stays, so that a map keeps all of its
entries exactly if no two of its keys stand for one value. The keys that are written are read as
what they were written from, but for blank ones, which become `null`. -/

namespace Polystore
set_option autoImplicit false

open Documents (keyText?)
open UserType (convertEntries)

/-- Texts, integers, booleans and identifiers. -/
def plainScalars : List Scalar := [.string, .int, .long, .bool, .uuid]

/-! ## Texts of keys -/

namespace Scalar

variable {s : Scalar} {a b : String} {v w : Value}

theorem ne_json (hs : s ∈ plainScalars) : s ≠ .json := by
  rintro rfl
  exact absurd hs (by decide)

theorem decode_str : s.decode (.str a) = .ok v ↔ s.coerceTo (.str a) = .ok v := by
  have hunwrap : s.unwrap (.str a) = .str a := rfl
  have hnull : (Value.str a).isNull = false := rfl
  unfold decode
  dsimp only
  rw [hunwrap, hnull, if_neg Bool.false_ne_true]
  cases s.coerceTo (.str a) with
  | ok r => rw [Except.ok.injEq, Except.ok.injEq]
  | error e => exact ⟨nofun, nofun⟩

theorem integer_eq_none : integer (.str a) = .ok none ↔ Text.isBlankText a = true := by
  rw [← Text.isEmpty_trim]
  unfold integer
  apply Ne.ite_eq_left_iff
  intro h
  repeat' split at h
  all_goals cases h

/-- Blank texts alone stand for no value. -/
theorem decode_eq_null (hs : s ∈ plainScalars) (hstring : s ≠ .string) :
    s.decode (.str a) = .ok .null ↔ Text.isBlankText a = true := by
  rw [decode_str]
  cases s with
  | string => exact absurd rfl hstring
  | int =>
    rw [← integer_eq_none]
    change toInt (.str a) = _ ↔ _
    unfold toInt
    cases integer (.str a) with
    | error e => exact ⟨nofun, nofun⟩
    | ok n =>
      cases n with
      | none => exact ⟨fun _ => rfl, fun _ => rfl⟩
      | some n =>
        dsimp only
        split <;> exact ⟨nofun, nofun⟩
  | long =>
    rw [← integer_eq_none]
    change toLong (.str a) = _ ↔ _
    unfold toLong
    cases integer (.str a) with
    | error e => exact ⟨nofun, nofun⟩
    | ok n => cases n <;> simp [Except.map]
  | bool =>
    have hempty : (Text.lowerAscii (Text.trim a)).isEmpty = (Text.trim a).isEmpty := by
      rw [Bool.eq_iff_iff, String.isEmpty_iff, String.isEmpty_iff, ← String.toList_eq_nil_iff,
        ← String.toList_eq_nil_iff, Text.lowerAscii, String.toList_ofList, List.map_eq_nil_iff]
    rw [← Text.isEmpty_trim, ← hempty]
    change toBool (.str a) = _ ↔ _
    unfold toBool
    apply Ne.ite_eq_left_iff
    intro h
    repeat' split at h
    all_goals cases h
  | uuid =>
    rw [← Text.isEmpty_trim]
    change toUuid (.str a) = _ ↔ _
    unfold toUuid
    apply Ne.ite_eq_left_iff
    intro h
    split at h <;> cases h
  | double | instant | json => exact absurd hs (by decide)

theorem encoded_of_decode (hs : s ∈ plainScalars) (h : s.decode (.str a) = .ok v) :
    Encoded (.scalar s) v := scalar_encoded (ne_json hs) ((encode_eq_ok (ne_json hs)).mpr h)

/-- A value is read from its text. -/
theorem decode_text (hs : s ∈ plainScalars) (h : Encoded (.scalar s) v) (hnull : v.isNull = false) :
    s.decode (.str v.text) = .ok v := by
  cases h with
  | null => cases hnull
  | string => rfl
  | int n =>
    have hn := (toInt_denoted (Value.denotes_repr n.toInt)).1 (Number.fits32_toInt n)
    rw [Int32.ofInt_toInt] at hn
    exact decode_of_coerced rfl rfl hn
  | long n =>
    have hreadable : ¬(Value.str n.toInt.repr).Unreadable n.toInt := by
      have hbound := Double.pow_64_le_overflow
      have hlow := n.le_toInt
      have hhigh := n.toInt_lt
      intro hx
      have hover := hx.2
      omega
    have hn := (toLong_denoted (Value.denotes_repr n.toInt)).1 hreadable
    rw [Number.clamp64_of_fits (Number.fits64_toInt n), Int64.ofInt_toInt] at hn
    exact decode_of_coerced rfl rfl hn
  | bool b => cases b <;> rfl
  | uuid u => exact decode_of_coerced rfl rfl (toUuid_text u)
  | double => exact absurd hs (by decide)
  | instant => exact absurd hs (by decide)

/-- No value is read from `null`, the text of what stands for no value. -/
theorem decode_nullText (hs : s ∈ plainScalars) (hstring : s ≠ .string) :
    ∃ e, s.decode (.str Value.null.text) = .error e := by
  cases s with
  | string => exact absurd rfl hstring
  | int | long | bool | uuid => exact ⟨_, rfl⟩
  | double | instant | json => exact absurd hs (by decide)

theorem keyText?_eq_some :
    keyText? s.decode a = some b ↔ ∃ v, s.decode (.str a) = .ok v ∧ v.text = b := by
  unfold keyText?
  cases s.decode (.str a) <;> simp [Except.toOption]

theorem keyText?_encode (hs : s ∈ plainScalars) : keyText? s.encode a = keyText? s.decode a := by
  unfold keyText? encode
  rw [if_neg (ne_json hs)]
  cases s.decode (.str a) <;> rfl

/-- Values that are read and have one text are one value. -/
theorem eq_of_text (hs : s ∈ plainScalars) (hv : s.decode (.str a) = .ok v)
    (hw : s.decode (.str b) = .ok w) (h : v.text = w.text) : v = w := by
  have hread : ∀ {c : String} {x : Value}, s.decode (.str c) = .ok x → x.isNull = false →
      s.decode (.str x.text) = .ok x := fun hx => decode_text hs (encoded_of_decode hs hx)
  by_cases hstring : s = .string
  · subst hstring
    cases hv
    cases hw
    exact congrArg Value.str h
  · obtain ⟨e, he⟩ := decode_nullText hs hstring
    cases hnullV : v.isNull <;> cases hnullW : w.isNull
    · have hvalue := hread hv hnullV
      rw [h, hread hw hnullW] at hvalue
      exact (Except.ok.inj hvalue).symm
    · cases w <;> cases hnullW
      have hvalue := hread hv hnullV
      rw [h, he] at hvalue
      cases hvalue
    · cases v <;> cases hnullV
      have hvalue := hread hw hnullW
      rw [← h, he] at hvalue
      cases hvalue
    · cases v <;> cases hnullV
      cases w <;> cases hnullW
      rfl

/-- A key that is written is read as what it was written from, unless that was a blank. -/
theorem keyText?_settled (hs : s ∈ plainScalars) (h : keyText? s.decode a = some b) :
    keyText? s.decode b = some b ↔ s = .string ∨ Text.isBlankText a = false := by
  obtain ⟨v, hv, rfl⟩ := keyText?_eq_some.mp h
  by_cases hstring : s = .string
  · subst hstring
    exact ⟨fun _ => .inl rfl, fun _ => rfl⟩
  · have hblank := decode_eq_null (a := a) hs hstring
    cases hnull : v.isNull with
    | true =>
      cases v <;> cases hnull
      obtain ⟨e, he⟩ := decode_nullText hs hstring
      rw [keyText?_eq_some, he, hblank.mp hv]
      exact ⟨nofun, fun hor => absurd (hor.resolve_left hstring) nofun⟩
    | false =>
      have hnot : Text.isBlankText a = false := by
        rw [← Bool.not_eq_true, ← hblank, hv]
        rintro ⟨⟩
        cases hnull
      have hread := decode_text hs (encoded_of_decode hs hv) hnull
      exact ⟨fun _ => .inr hnot, fun _ => keyText?_eq_some.mpr ⟨v, hread, rfl⟩⟩

end Scalar

/-! ## Entries of maps -/

/-- An entry and what it is converted to. -/
structure ConvertsTo (key value : Value → Except CodecError Value) (e w : String × Value) :
    Prop where
  key : keyText? key e.1 = some w.1
  value : value e.2 = .ok w.2

/-- No two keys stand for one value. -/
def KeysApart (key : Scalar) (m : Document) : Prop :=
  ∀ a ∈ Entries.keys m, ∀ b ∈ Entries.keys m, key.decode (.str a) = key.decode (.str b) → a = b

section
variable {key value : Value → Except CodecError Value} {done es m ws : Document}

/-- The entries are converted one by one and put in one after the other. -/
theorem convertEntries_eq_ok (h : convertEntries value key done es = .ok m) :
    ∃ ws, List.Forall₂ (ConvertsTo key value) es ws ∧
      m = ws.foldl (fun acc e => Entries.insert e.1 e.2 acc) done := by
  induction es generalizing done with
  | nil =>
    cases h
    exact ⟨[], .nil, rfl⟩
  | cons e es ih =>
    obtain ⟨k, hk, h⟩ := bind_eq_ok.mp h
    obtain ⟨v, hv, h⟩ := bind_eq_ok.mp h
    obtain ⟨ws, hws, rfl⟩ := ih h
    have hkey : keyText? key e.1 = some k.text := by
      rw [keyText?, hk]
      rfl
    exact ⟨(k.text, v) :: ws, .cons ⟨hkey, hv⟩ hws, rfl⟩

theorem keyTexts_eq (h : List.Forall₂ (ConvertsTo key value) es ws) :
    (Entries.keys es).map (keyText? key) = (Entries.keys ws).map some := by
  induction h with
  | nil => rfl
  | cons he _ ih => exact congrArg₂ List.cons he.key ih

end

section
variable {s : Scalar} {value : Value → Except CodecError Value} {m ws : Document}

theorem nodup_keyTexts (hs : s ∈ plainScalars) (hm : Entries.Sorted m)
    (h : List.Forall₂ (ConvertsTo s.decode value) m ws) :
    (Entries.keys ws).Nodup ↔ KeysApart s m := by
  have hkeys : (Entries.keys m).Nodup := Entries.nodup_keys hm
  rw [← List.nodup_map_iff (Option.some_injective String), ← keyTexts_eq h,
    List.nodup_map_iff_inj_on hkeys]
  have hread : ∀ a ∈ Entries.keys m, ∃ v, s.decode (.str a) = .ok v := by
    intro a ha
    have hmem := List.mem_map_of_mem (f := keyText? s.decode) ha
    rw [keyTexts_eq h] at hmem
    obtain ⟨k, -, hk⟩ := List.mem_map.mp hmem
    obtain ⟨v, hv, -⟩ := Scalar.keyText?_eq_some.mp hk.symm
    exact ⟨v, hv⟩
  refine forall₂_congr fun a ha => forall₂_congr fun b hb => ?_
  have heq : keyText? s.decode a = keyText? s.decode b ↔ s.decode (.str a) = s.decode (.str b) := by
    obtain ⟨v, hv⟩ := hread a ha
    obtain ⟨w, hw⟩ := hread b hb
    have htexts : keyText? s.decode a = keyText? s.decode b ↔ v.text = w.text := by
      rw [Scalar.keyText?_eq_some.mpr ⟨v, hv, rfl⟩, Scalar.keyText?_eq_some.mpr ⟨w, hw, rfl⟩,
        Option.some_inj]
    rw [htexts, hv, hw, Except.ok.injEq]
    exact ⟨Scalar.eq_of_text hs hv hw, congrArg Value.text⟩
  rw [heq]

theorem keyTexts_settled (hs : s ∈ plainScalars)
    (h : List.Forall₂ (ConvertsTo s.decode value) m ws) :
    (∀ k ∈ Entries.keys ws, keyText? s.decode k = some k) ↔
      s = .string ∨ ∀ a ∈ Entries.keys m, Text.isBlankText a = false := by
  induction h with
  | nil => exact ⟨fun _ => .inr nofun, fun _ => nofun⟩
  | @cons e w _ _ he _ ih =>
    change (∀ k ∈ w.1 :: Entries.keys _, _) ↔ _ ∨ ∀ a ∈ e.1 :: Entries.keys _, _
    rw [List.forall_mem_cons, List.forall_mem_cons, Scalar.keyText?_settled hs he.key, ih,
      or_and_left]

end

variable {t : TypeTable} {key : Scalar} {value : UserType} {id : String} {V : TypeRef}
  {convert : UserType → Value → Except CodecError Value}

theorem TypeTable.get_map (ht : t.Own) (hkey : key ∈ plainScalars)
    (hid : TypeRef.parse id = .ok (.map (.scalar key.id) V)) (hvalue : t.part V = .ok value) :
    t.get id = .ok (.map (Text.trim id) (.scalar key) value) := by
  have hscalar : t.part (.scalar key.id) = .ok (.scalar key) := by
    rw [TypeTable.part, TypeTable.scalar, ht.named?_id (Scalar.ne_json hkey)]
  rw [TypeTable.get_parsed ht hid, TypeTable.whole, hscalar, hvalue]
  rfl

/-- A map that is converted has the converted entries, of which the last one of each key stays. No
entry is lost if no two keys stand for one value, and the keys stay what they are from then on if
none is blank, or all are texts. -/
theorem map_entries_converted (ht : t.Own) (hkey : key ∈ plainScalars)
    (hid : TypeRef.parse id = .ok (.map (.scalar key.id) V)) (hvalue : t.part V = .ok value)
    (hconvert : convert ∈ [UserType.encode, UserType.decode]) {m : Document}
    (hm : Entries.Sorted m) {r : Value} (h : (t.get id).bind (convert · (.map m)) = .ok r) :
    ∃ ws es, List.Forall₂ (ConvertsTo key.decode (convert value)) m ws ∧ r = .map es ∧
      Entries.Sorted es ∧ (∀ k, es.lookup k = ws.reverse.lookup k) ∧
      (es.length = m.length ↔ KeysApart key m) ∧ (KeysApart key m → es.Perm ws) ∧
      ((∀ k ∈ Entries.keys es, keyText? key.decode k = some k) ↔
        key = .string ∨ ∀ a ∈ Entries.keys m, Text.isBlankText a = false) := by
  obtain ⟨es, hes, rfl⟩ : ∃ es, convertEntries (convert value) (convert (.scalar key)) [] m =
      .ok es ∧ r = .map es := by
    rw [TypeTable.get_map ht hkey hid hvalue] at h
    rw [List.mem_pair] at hconvert
    obtain rfl | rfl := hconvert
    all_goals
      obtain ⟨es, hes, hr⟩ := map_eq_ok.mp h
      exact ⟨es, hes, hr.symm⟩
  obtain ⟨ws, hws, rfl⟩ := convertEntries_eq_ok hes
  have hws : List.Forall₂ (ConvertsTo key.decode (convert value)) m ws := by
    refine hws.imp fun e w he => ⟨?_, he.value⟩
    rw [List.mem_pair] at hconvert
    obtain rfl | rfl := hconvert
    · rw [← Scalar.keyText?_encode hkey]
      exact he.key
    · exact he.key
  have hnodup := nodup_keyTexts hkey hm hws
  refine ⟨ws, Entries.ofList ws, hws, rfl, Entries.sorted_ofList ws, Entries.lookup_ofList ws, ?_,
    fun hapart => Entries.perm_ofList (hnodup.mpr hapart), ?_⟩
  · rw [hws.length_eq, Entries.length_ofList, hnodup]
  · rw [← keyTexts_settled hkey hws]
    exact forall_congr' fun k => by rw [Entries.mem_keys_ofList]

/-- Of two spellings of one number as keys the later entry stays, and a blank key becomes a text
that is no number. -/
theorem mergedKeys_converted :
    let t := TypeTable.ofDialect "postgres"
    let m : Document := [("", .long 4), ("01", .long 5), ("1", .long 6)]
    ∃ es, t.decode "map<long,long>" (.map m) = .ok (.map es) ∧ es.lookup "1" = some (.long 6) ∧
      es.length ≠ m.length ∧ ¬∀ k ∈ Entries.keys es, keyText? Scalar.long.decode k = some k := by
  intro t m
  have ht : t.Own := TypeTable.own_ofDialect "postgres"
  have hid : TypeRef.parse "map<long,long>" =
      .ok (.map (.scalar Scalar.long.id) (.scalar "long")) := by
    decide +kernel
  have hm : Entries.Sorted m := by
    unfold Entries.Sorted
    decide +kernel
  have h : t.decode "map<long,long>" (.map m) = .ok (.map [("1", .long 6), ("null", .long 4)]) := by
    rw [TypeTable.decode, TypeTable.get_map ht (by decide) hid rfl]
    rfl
  obtain ⟨_, _, -, hr, -, -, hlength, -, hsettled⟩ := map_entries_converted ht (by decide) hid rfl
    (List.mem_cons_of_mem _ List.mem_cons_self) hm h
  cases hr
  refine ⟨_, h, rfl, ?_, ?_⟩
  · rw [ne_eq, hlength]
    intro hapart
    have hone := hapart "01" (by decide) "1" (by decide) rfl
    exact absurd hone (by decide)
  · rw [hsettled]
    rintro (hstring | hblank)
    · cases hstring
    · exact absurd (hblank "" (by decide)) (by decide)

end Polystore
