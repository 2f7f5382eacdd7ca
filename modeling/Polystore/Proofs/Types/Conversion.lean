import Mathlib
import Polystore.Proofs.Number.Bounds
import Polystore.Proofs.Outcome
import Polystore.Proofs.Types.TypeIds

/-! # Encoded values

A value of a stored type, once encoded, stays what it is: decoding gives it back, also when its
identifiers were written as texts, and instants are instants already. -/

namespace Polystore
set_option autoImplicit false

/-! ## Identifiers as texts -/

namespace Uuid

theorem unhyphenate?_hyphenate {ns : List Nat} {cs : List Char} (h : ns.sum ≤ cs.length) :
    unhyphenate? ns (hyphenate ns cs) = some cs := by
  induction ns generalizing cs with
  | nil => rfl
  | cons n ns ih =>
    cases ns with
    | nil => rfl
    | cons m ns =>
      rw [List.sum_cons] at h
      have htake : (cs.take n).length = n := by
        rw [List.length_take]
        omega
      have hrest : (m :: ns).sum ≤ (cs.drop n).length := by
        rw [List.length_drop]
        omega
      rw [hyphenate, unhyphenate?]
      · rw [List.drop_left' htake, List.take_left' htake]
        show (unhyphenate? (m :: ns) (hyphenate (m :: ns) (cs.drop n))).map (cs.take n ++ ·) = _
        rw [ih hrest, Option.map_some, List.take_append_drop]
      · exact List.cons_ne_nil m ns
      · exact List.cons_ne_nil m ns

theorem length_hyphenate {n : Nat} {ns : List Nat} {cs : List Char}
    (h : (n :: ns).sum ≤ cs.length) : (hyphenate (n :: ns) cs).length = cs.length + ns.length := by
  induction ns generalizing n cs with
  | nil => rfl
  | cons m ns ih =>
    rw [List.sum_cons] at h
    have hrest : (m :: ns).sum ≤ (cs.drop n).length := by
      rw [List.length_drop]
      omega
    rw [hyphenate, List.length_append, List.length_cons, ih hrest, List.length_take,
      List.length_drop, List.length_cons]
    · omega
    · exact List.cons_ne_nil m ns

theorem mem_hyphenate {ns : List Nat} {cs : List Char} {c : Char} (h : c ∈ hyphenate ns cs) :
    c = '-' ∨ c ∈ cs := by
  induction ns generalizing cs with
  | nil => exact .inr h
  | cons n ns ih =>
    cases ns with
    | nil => exact .inr h
    | cons m ns =>
      rw [hyphenate] at h
      · rcases List.mem_append.mp h with htake | hrest
        · exact .inr (List.mem_of_mem_take htake)
        · rcases List.mem_cons.mp hrest with rfl | hdrop
          · exact .inl rfl
          · exact (ih hdrop).imp id List.mem_of_mem_drop
      · exact List.cons_ne_nil m ns

theorem mapM_digit? (ds : List (Fin 16)) : (ds.map digitChar).mapM digit? = some ds := by
  induction ds with
  | nil => rfl
  | cons d ds ih =>
    rw [List.map_cons, List.mapM_cons, digit?_digitChar, ih]
    rfl

theorem ofDigits?_digits (u : Uuid) : ofDigits? (u.digits.map digitChar) = some u := by
  unfold ofDigits?
  rw [mapM_digit?]
  dsimp only
  rw [dif_pos u.length_eq]

theorem ofChars?_of_digit {d : Fin 16} {cs : List Char} (h : (digitChar d :: cs).length ≠ 32) :
    ofChars? (digitChar d :: cs) = ofHyphenated? (digitChar d :: cs) := by
  have hbrace : ∀ d : Fin 16, digitChar d ≠ '\x7b' := by decide
  have hurn : ∀ d : Fin 16, ('u' == digitChar d) = false := by decide
  have hbraces : inBraces? (digitChar d :: cs) = none := by
    unfold inBraces?
    split
    · rename_i r heq
      exact absurd (List.cons.inj heq).1 (hbrace d)
    · rfl
  have hprefix : "urn:uuid:".toList.isPrefixOf? (digitChar d :: cs) = none := by
    have hchars : "urn:uuid:".toList = 'u' :: ['r', 'n', ':', 'u', 'u', 'i', 'd', ':'] := by decide
    rw [hchars, List.isPrefixOf?, hurn d, if_neg Bool.false_ne_true]
  unfold ofChars?
  rw [if_neg (by simpa using h), hbraces, hprefix]

theorem toList_text (u : Uuid) : u.text.toList = hyphenate groups (u.digits.map digitChar) :=
  String.toList_ofList

theorem groups_le (u : Uuid) : groups.sum ≤ (u.digits.map digitChar).length := by
  rw [List.length_map, u.length_eq]
  decide

/-- The text begins with a digit. -/
theorem text_eq_cons (u : Uuid) : ∃ d cs, u.text.toList = digitChar d :: cs := by
  have hpos : 0 < u.digits.length := by
    rw [u.length_eq]
    decide
  obtain ⟨d, ds, hds⟩ := List.exists_cons_of_length_pos hpos
  have hhead : ∃ cs, hyphenate groups ((d :: ds).map digitChar) = digitChar d :: cs := ⟨_, rfl⟩
  obtain ⟨cs, hcs⟩ := hhead
  exact ⟨d, cs, by rw [toList_text, hds, hcs]⟩

theorem ofText?_text (u : Uuid) : ofText? u.text = some u := by
  obtain ⟨d, cs, hcons⟩ := text_eq_cons u
  have hlength : u.text.toList.length ≠ 32 := by
    rw [toList_text, groups, length_hyphenate u.groups_le, List.length_map, u.length_eq]
    decide
  rw [hcons] at hlength
  unfold ofText?
  rw [hcons, ofChars?_of_digit hlength, ← hcons, toList_text, ofHyphenated?,
    unhyphenate?_hyphenate u.groups_le]
  exact ofDigits?_digits u

theorem trim_text (u : Uuid) : Text.trim u.text = u.text := by
  have hdigit : ∀ d : Fin 16, Text.isBlank (digitChar d) = false := by decide
  apply Text.trim_of_all
  intro c hc
  rw [toList_text] at hc
  rcases mem_hyphenate hc with rfl | hc
  · decide
  · obtain ⟨d, -, rfl⟩ := List.mem_map.mp hc
    exact hdigit d

theorem text_ne_empty (u : Uuid) : u.text.isEmpty = false := by
  obtain ⟨d, cs, hcons⟩ := text_eq_cons u
  rw [← Bool.not_eq_true, String.isEmpty_iff]
  intro hempty
  rw [hempty] at hcons
  cases hcons

end Uuid

/-! ## Sets -/

namespace Value

/-- No value equals an earlier one. -/
def Separate (vs : List Value) : Prop := vs.Pairwise fun a b => same b a = false

theorem foldl_of_separate {kept vs : List Value} (h : Separate (kept ++ vs)) :
    vs.foldl (fun kept v => if kept.any (same v) then kept else kept ++ [v]) kept = kept ++ vs := by
  induction vs generalizing kept with
  | nil => rw [List.foldl_nil, List.append_nil]
  | cons v vs ih =>
    have hsplit : kept ++ v :: vs = (kept ++ [v]) ++ vs := by
      rw [List.append_assoc, List.singleton_append]
    have hnew : kept.any (same v) = false := by
      rw [List.any_eq_false]
      intro a ha
      have hbetween := (List.pairwise_append.mp h).2.2 a ha v List.mem_cons_self
      rw [hbetween]
      exact Bool.false_ne_true
    rw [List.foldl_cons, hnew, if_neg Bool.false_ne_true, hsplit]
    rw [hsplit] at h
    exact ih h

theorem dedup_of_separate {vs : List Value} (h : Separate vs) : dedup vs = vs :=
  foldl_of_separate h

theorem separate_dedup (vs : List Value) : Separate (dedup vs) := by
  have hfold : ∀ kept, Separate kept → Separate
      (vs.foldl (fun kept v => if kept.any (same v) then kept else kept ++ [v]) kept) := by
    induction vs with
    | nil => exact fun kept hkept => hkept
    | cons v vs ih =>
      intro kept hkept
      rw [List.foldl_cons]
      split
      · exact ih kept hkept
      · rename_i hnew
        apply ih
        refine List.pairwise_append.mpr ⟨hkept, List.pairwise_singleton _ v, fun a ha b hb => ?_⟩
        obtain rfl := List.mem_singleton.mp hb
        rw [Bool.not_eq_true, List.any_eq_false] at hnew
        exact Bool.not_eq_true _ ▸ hnew a ha
  exact hfold [] List.Pairwise.nil

theorem mem_of_mem_dedup {vs : List Value} {v : Value} (h : v ∈ dedup vs) : v ∈ vs := by
  have hfold : ∀ kept, v ∈ vs.foldl (fun kept v => if kept.any (same v) then kept
      else kept ++ [v]) kept → v ∈ kept ∨ v ∈ vs := by
    clear h
    induction vs with
    | nil => exact fun kept hkept => .inl hkept
    | cons w vs ih =>
      intro kept hkept
      rw [List.foldl_cons] at hkept
      rcases ih _ hkept with hkept | hvs
      · split at hkept
        · exact .inl hkept
        · rcases List.mem_append.mp hkept with hkept | hw
          · exact .inl hkept
          · exact .inr (List.mem_singleton.mp hw ▸ List.mem_cons_self)
      · exact .inr (List.mem_cons_of_mem w hvs)
  exact (hfold [] h).resolve_left List.not_mem_nil

end Value

/-! ## Encoded values -/

/-- The values that a type encodes to: null or of the one kind that it has. -/
inductive Encoded : UserType → Value → Prop
  | null (u : UserType) : Encoded u .null
  | string (s : String) : Encoded (.scalar .string) (.str s)
  | int (n : Int32) : Encoded (.scalar .int) (.int n)
  | long (n : Int64) : Encoded (.scalar .long) (.long n)
  | bool (b : Bool) : Encoded (.scalar .bool) (.bool b)
  | double (d : Float) : Encoded (.scalar .double) (.double d)
  | uuid (u : Uuid) : Encoded (.scalar .uuid) (.uuid u)
  | instant (t : Instant) : Encoded (.scalar .instant) (.instant t)
  | list {id : String} {w : TypeRef.Wrapper} {u : UserType} {vs : List Value}
    (items : ∀ v ∈ vs, Encoded u v) (collected : UserType.collect w vs = .list vs) :
    Encoded (.collection id w u) (.list vs)

open UserType (convertItems convertCollection)

theorem coerced_encoded {s : Scalar} (hs : s ≠ .json) {v w : Value} (h : s.coerceTo v = .ok w) :
    Encoded (.scalar s) w := by
  cases s with
  | json => exact absurd rfl hs
  | string =>
    change Scalar.toText v = .ok w at h
    unfold Scalar.toText at h
    split at h <;> cases h
    exact .string _
  | int =>
    change Scalar.toInt v = .ok w at h
    unfold Scalar.toInt at h
    split at h
    · cases h
    · cases h
      exact .null _
    · split at h <;> cases h
      exact .int _
  | long =>
    obtain ⟨n, -, rfl⟩ := map_eq_ok.mp h
    cases n with
    | none => exact .null _
    | some n => exact .long n
  | bool =>
    change Scalar.toBool v = .ok w at h
    unfold Scalar.toBool at h
    dsimp only at h
    repeat' split at h
    all_goals cases h <;> first | exact .null _ | exact .bool _
  | double =>
    change Scalar.toDouble v = .ok w at h
    unfold Scalar.toDouble at h
    dsimp only at h
    repeat' split at h
    all_goals cases h <;> first | exact .null _ | exact .double _
  | uuid =>
    change Scalar.toUuid v = .ok w at h
    unfold Scalar.toUuid at h
    dsimp only at h
    repeat' split at h
    all_goals cases h <;> first | exact .null _ | exact .uuid _
  | instant =>
    change Scalar.toInstant v = .ok w at h
    unfold Scalar.toInstant at h
    dsimp only at h
    repeat' split at h
    all_goals cases h <;> first | exact .null _ | exact .instant _

theorem scalar_encoded {s : Scalar} (hs : s ≠ .json) {v w : Value} (h : s.encode v = .ok w) :
    Encoded (.scalar s) w := by
  have hdecode : s.decode v = .ok w := by
    unfold Scalar.encode at h
    rw [if_neg hs] at h
    cases hd : s.decode v with
    | ok r =>
      rw [hd] at h
      exact h
    | error e =>
      rw [hd] at h
      cases h
  unfold Scalar.decode at hdecode
  dsimp only at hdecode
  split at hdecode
  · cases hdecode
    exact .null _
  · split at hdecode
    · rename_i hcoerced
      cases hdecode
      exact coerced_encoded hs hcoerced
    · cases hdecode

theorem forall_convertItems {P : Value → Prop} {convert : Value → Except CodecError Value}
    (hconvert : ∀ v w, convert v = .ok w → P w) {vs ws : List Value}
    (h : convertItems convert vs = .ok ws) : ∀ w ∈ ws, P w := by
  induction vs generalizing ws with
  | nil =>
    cases h
    exact nofun
  | cons v vs ih =>
    obtain ⟨w, hw, h⟩ := bind_eq_ok.mp h
    obtain ⟨ws, hws, h⟩ := bind_eq_ok.mp h
    cases h
    exact List.forall_mem_cons.mpr ⟨hconvert v w hw, ih hws⟩

/-- What a stored type encodes to. -/
theorem Storable.encoded {t : TypeRef} {u : UserType} (ht : Storable t u) {v w : Value}
    (h : u.encode v = .ok w) : Encoded u w := by
  induction ht generalizing v w with
  | scalar hs => exact scalar_encoded hs h
  | @wrapped k t u ht ih =>
    unfold UserType.encode convertCollection at h
    split at h
    · cases h
      exact .null _
    · obtain ⟨ws, hws, rfl⟩ := map_eq_ok.mp h
      have hitems : ∀ w ∈ ws, Encoded u w := forall_convertItems (fun v w => ih) hws
      unfold UserType.collect
      split
      · rename_i hk
        refine .list (fun v hv => hitems v (Value.mem_of_mem_dedup hv)) ?_
        rw [UserType.collect, if_pos hk, Value.dedup_of_separate (Value.separate_dedup ws)]
      · rename_i hk
        refine .list hitems ?_
        rw [UserType.collect, if_neg hk]

/-! ## Decoding -/

theorem convertItems_map {convert : Value → Except CodecError Value} {f : Value → Value}
    {vs : List Value} (h : ∀ v ∈ vs, convert (f v) = .ok v) :
    convertItems convert (vs.map f) = .ok vs := by
  induction vs with
  | nil => rfl
  | cons v vs ih =>
    obtain ⟨hv, hvs⟩ := List.forall_mem_cons.mp h
    rw [List.map_cons, UserType.convertItems, hv, ih hvs]
    rfl

theorem decode_list {id : String} {k : TypeRef.Wrapper} {u : UserType} {f : Value → Value}
    {vs : List Value} (hitems : ∀ v ∈ vs, u.decode (f v) = .ok v)
    (hcollected : UserType.collect k vs = .list vs) :
    (UserType.collection id k u).decode (.list (vs.map f)) = .ok (.list vs) := by
  have hconvert : convertItems u.decode (UserType.items (.list (vs.map f))) = .ok vs :=
    convertItems_map hitems
  unfold UserType.decode convertCollection
  rw [hconvert]
  exact congrArg Except.ok hcollected

theorem decode_of_coerced {s : Scalar} {v w : Value} (hunwrap : s.unwrap v = v)
    (hnull : v.isNull = false) (h : s.coerceTo v = .ok w) :
    (UserType.scalar s).decode v = .ok w := by
  show s.decode v = .ok w
  unfold Scalar.decode
  dsimp only
  rw [hunwrap, hnull, h]
  rfl

theorem toInt_int (n : Int32) : Scalar.toInt (.int n) = .ok (.int n) := by
  have hlow : -2 ^ 31 ≤ n.toInt := n.le_toInt
  have hhigh : n.toInt < 2 ^ 31 := n.toInt_lt
  have hinteger : Scalar.integer (.int n) = .ok (some (Int64.ofInt n.toInt)) := rfl
  have hword : (Int64.ofInt n.toInt).toInt = n.toInt :=
    Int64.toInt_ofInt_of_le (by omega) (by omega)
  unfold Scalar.toInt
  rw [hinteger]
  dsimp only
  rw [hword, if_pos (Number.fits32_toInt n), Int32.ofInt_toInt]

theorem toUuid_text (u : Uuid) : Scalar.toUuid (.str u.text) = .ok (.uuid u) := by
  unfold Scalar.toUuid
  dsimp only
  rw [u.trim_text, u.text_ne_empty, if_neg Bool.false_ne_true, u.ofText?_text]

theorem decode_null (u : UserType) : u.decode .null = .ok .null := by
  cases u with
  | scalar s => cases s <;> rfl
  | nativeJson => rfl
  | collection => rfl
  | map => rfl

namespace Encoded

variable {u : UserType} {w : Value}

/-- Encoded values are decoded already. -/
theorem decode_eq (h : Encoded u w) : u.decode w = .ok w := by
  induction h with
  | null u => exact decode_null u
  | string | bool | double | uuid | instant => rfl
  | int n => exact decode_of_coerced rfl rfl (toInt_int n)
  | long n => rfl
  | @list typeId k u vs items collected ih =>
    have hlist := @decode_list typeId k u id vs ih collected
    rwa [List.map_id] at hlist

theorem uuidTexts_eq (vs : List Value) : uuidTexts vs = vs.map uuidText := by
  induction vs with
  | nil => rfl
  | cons v vs ih => rw [uuidTexts, List.map_cons, ih]

/-- Identifiers are read from their texts. -/
theorem decode_uuidText (h : Encoded u w) : u.decode (uuidText w) = .ok w := by
  induction h with
  | null u => exact decode_null u
  | uuid u => exact decode_of_coerced rfl rfl (toUuid_text u)
  | list items collected ih =>
    rw [uuidText, uuidTexts_eq]
    exact decode_list ih collected
  | string s => exact decode_eq (.string s)
  | bool b => exact decode_eq (.bool b)
  | double d => exact decode_eq (.double d)
  | instant t => exact decode_eq (.instant t)
  | int n => exact decode_eq (.int n)
  | long n => exact decode_eq (.long n)

theorem asInstants_eq {vs : List Value} (h : ∀ v ∈ vs, asInstant v = .ok v) :
    asInstants vs = .ok vs := by
  induction vs with
  | nil => rfl
  | cons v vs ih =>
    obtain ⟨hv, hvs⟩ := List.forall_mem_cons.mp h
    rw [asInstants, hv, ih hvs]
    rfl

theorem asInstant_scalar (h : Encoded (.scalar .instant) w) : asInstant w = .ok w := by
  cases h with
  | null => rfl
  | instant t => rfl

/-- Encoded instants are stored as they are. -/
theorem asInstant_eq (h : Encoded u w)
    (hu : u = .scalar .instant ∨ ∃ id k, u = .collection id k (.scalar .instant)) :
    asInstant w = .ok w := by
  obtain rfl | ⟨id, k, rfl⟩ := hu
  · exact asInstant_scalar h
  · cases h with
    | null => rfl
    | @list _ _ _ vs items _ =>
      show (asInstants vs).map Value.list = .ok (Value.list vs)
      rw [asInstants_eq fun v hv => asInstant_scalar (items v hv)]
      rfl

end Encoded
end Polystore
