import Polystore.Proofs.Types.TypeTexts
import Polystore.Proofs.Value.Equality

/-! # Conversions that settle

Both directions of a stored type are one conversion, and what it gives it gives again. Sets convert
as lists do and then keep the first of each of the equal members. -/

namespace Polystore
set_option autoImplicit false

open UserType (convertItems convertCollection)

/-! ## Types that are read from their ids -/

namespace TypeTable

variable {t : TypeTable} {id : String} {r : TypeRef} {u : UserType}

/-- However its id is written, a stored type is found and converts. -/
theorem get_storable (ht : t.Own) (h : TypeRef.parse id = .ok r) (hr : Storable r u) :
    t.contains id = true ∧ (∀ v, t.encode id v = u.encode v) ∧ ∀ v, t.decode id v = u.decode v := by
  unfold contains encode decode
  rw [get_parsed ht h]
  cases hr with
  | @scalar s hs =>
    rw [whole, scalar, ht.named?_id hs]
    exact ⟨rfl, fun _ => rfl, fun _ => rfl⟩
  | @wrapped w e item he =>
    rw [whole_wrap, he.part_eq ht]
    exact ⟨rfl, fun _ => rfl, fun _ => rfl⟩

end TypeTable

/-! ## Both directions -/

section
variable {r : TypeRef} {u : UserType} {x v : Value}

theorem Scalar.encode_eq_ok {s : Scalar} (hs : s ≠ .json) :
    s.encode x = .ok v ↔ s.decode x = .ok v := by
  unfold Scalar.encode
  rw [if_neg hs]
  cases s.decode x with
  | ok w => exact Iff.rfl
  | error e => exact iff_of_false nofun nofun

theorem convertItems_congr {f g : Value → Except CodecError Value}
    (h : ∀ x v, f x = .ok v ↔ g x = .ok v) (xs vs : List Value) :
    convertItems f xs = .ok vs ↔ convertItems g xs = .ok vs := by
  induction xs generalizing vs with
  | nil => exact Iff.rfl
  | cons x xs ih =>
    unfold convertItems
    simp only [bind_eq_ok, h, ih]

theorem convertCollection_eq_ok {w : TypeRef.Wrapper} {f : Value → Except CodecError Value} :
    convertCollection w f x = .ok v ↔ (x.isNull = true ∧ v = .null) ∨
      (x.isNull = false ∧ ∃ vs, convertItems f (UserType.items x) = .ok vs ∧
        UserType.collect w vs = v) := by
  unfold convertCollection
  cases x.isNull with
  | true => simp [eq_comm]
  | false => simp [map_eq_ok]

/-- Encoding is decoding, but for what an error says. -/
theorem Storable.encode_eq_ok (hr : Storable r u) : u.encode x = .ok v ↔ u.decode x = .ok v := by
  induction hr generalizing x v with
  | scalar hs => exact Scalar.encode_eq_ok hs
  | @wrapped w e item he ih =>
    show convertCollection w item.encode x = .ok v ↔ convertCollection w item.decode x = .ok v
    simp only [convertCollection_eq_ok, convertItems_congr fun _ _ => ih]

/-- What was decoded is decoded already. -/
theorem Storable.decode_settled (hr : Storable r u) (h : u.decode x = .ok v) :
    u.decode v = .ok v :=
  (hr.encoded (hr.encode_eq_ok.mpr h)).decode_eq

end

/-! ## Sets -/

namespace Value

/-- A list without the members that equal an earlier one; other values stay as they are. -/
def withoutRepeats : Value → Value
  | list vs => list (firsts vs)
  | v => v

end Value

theorem collect_set (vs : List Value) :
    UserType.collect .set vs = (UserType.collect .list vs).withoutRepeats := by
  show Value.list (Value.dedup vs) = _
  rw [Value.dedup_eq_firsts]
  rfl

theorem convertCollection_set (f : Value → Except CodecError Value) (x : Value) :
    convertCollection .set f x = (convertCollection .list f x).map Value.withoutRepeats := by
  unfold convertCollection
  cases x.isNull with
  | true => rfl
  | false =>
    cases convertItems f (UserType.items x) with
    | error e => rfl
    | ok vs => exact congrArg Except.ok (collect_set vs)

/-! ## Types by their ids -/

theorem Storable.of_set {e : TypeRef} {u : UserType} (h : Storable (.set e) u) :
    ∃ item, Storable e item ∧ u = .collection (TypeRef.set e).typeId .set item := by
  generalize hs : TypeRef.set e = s at h
  cases h with
  | scalar => cases hs
  | @wrapped w e' item he =>
    cases w with
    | set =>
      cases hs
      exact ⟨item, he, rfl⟩
    | list | array => cases hs

/-- For every type of stored fields, however its id is written, encoding and decoding are one
conversion that gives its results again, and a set is the list without its repeated members. -/
theorem conversions_settle (dialect : String) {id : String} {r : TypeRef} {u : UserType}
    (hid : TypeRef.parse id = .ok r) (hr : Storable r u) (x : Value) :
    let t := TypeTable.ofDialect dialect
    t.contains id = true ∧
    (∀ v, t.encode id x = .ok v ↔ t.decode id x = .ok v) ∧
    (∀ v, t.decode id x = .ok v → t.encode id v = .ok v ∧ t.decode id v = .ok v) ∧
    ∀ e, r = .set e →
      t.decode id x = (t.decode (TypeRef.list e).typeId x).map Value.withoutRepeats := by
  intro t
  have ht : t.Own := TypeTable.own_ofDialect dialect
  obtain ⟨hfound, hencode, hdecode⟩ := TypeTable.get_storable ht hid hr
  simp only [hencode, hdecode]
  refine ⟨hfound, fun v => hr.encode_eq_ok, fun v hv => ?_, ?_⟩
  · exact ⟨hr.encode_eq_ok.mpr (hr.decode_settled hv), hr.decode_settled hv⟩
  · rintro e rfl
    obtain ⟨item, he, rfl⟩ := hr.of_set
    have hlist : Storable (.list e) (.collection (TypeRef.list e).typeId .list item) :=
      .wrapped .list he
    obtain ⟨-, -, hdecodeList⟩ := TypeTable.get_storable ht hlist.parse_typeId hlist
    rw [hdecodeList]
    exact convertCollection_set item.decode x

/-- Numbers, texts and JSON in a set of sets, two of which are equal once they are converted. -/
theorem nestedSets_settle :
    let t := TypeTable.ofDialect "postgres"
    let x := Value.list [.list [.long 1, .str " +2 ", .int 1], .str "7", .null,
      .json (.arr [.int 7, .str "7"])]
    let v := Value.list [.list [.int 1, .int 2], .list [.int 7], .null]
    TypeRef.parse " Set<SET< int>>" = .ok (.set (.set (.scalar "int"))) ∧
      t.decode " Set<SET< int>>" x = .ok v ∧ t.encode " Set<SET< int>>" v = .ok v := by
  intro t x v
  have hid : TypeRef.parse " Set<SET< int>>" = .ok (.set (.set (.scalar "int"))) := by
    have hint : TypeRef.parseChars " int".toList = .ok (.scalar "int") :=
      TypeRef.parseChars_of_readAs (.scalar nofun (by decide))
    have hinner : TypeRef.parseChars "SET< int>".toList = .ok (.set (.scalar "int")) :=
      TypeRef.parseChars_of_readAs (.wrapped (w := .set) (by decide) hint)
    exact TypeRef.parseChars_of_readAs (.wrapped (w := .set) (by decide) hinner)
  have hr : Storable (.set (.set (.scalar "int"))) (.collection "set<set<int>>" .set
      (.collection "set<int>" .set (.scalar .int))) :=
    .wrapped .set (.wrapped .set (.scalar (s := .int) nofun))
  obtain ⟨-, -, hsettled, -⟩ := conversions_settle "postgres" hid hr x
  obtain ⟨-, -, hdecode⟩ := TypeTable.get_storable (TypeTable.own_ofDialect _) hid hr
  have hv : t.decode " Set<SET< int>>" x = .ok v := by
    rw [hdecode]
    rfl
  exact ⟨hid, hv, (hsettled v hv).1⟩

end Polystore
