import Polystore.Proofs.Sql.Preparing
import Polystore.Proofs.Types.MapKeys

/-! # Containers as texts

A dialect without arrays sends a container as the text of a JSON array. Widths of numbers and
identifiers are lost in it; the types of the elements bring them back, however deep the containers
are nested, so that a container is read from the text that was sent for it. -/

namespace Polystore
set_option autoImplicit false

/-- Plain scalars in any lists, sets and arrays. -/
inductive Plain : TypeRef → UserType → Prop
  | scalar {s : Scalar} (h : s ∈ plainScalars) : Plain (.scalar s.id) (.scalar s)
  | wrapped (w : TypeRef.Wrapper) {r : TypeRef} {u : UserType} (h : Plain r u) :
    Plain (w.wrap r) (.collection (w.wrap r).typeId w u)

/-! ## Trees of containers -/

namespace Value

theorem ofJsonItems_eq_map (vs : List Value) :
    ofJsonItems (toJsonItems vs) = vs.map fun v => ofJson v.toJson := by
  induction vs with
  | nil => rfl
  | cons v vs ih => exact congrArg (ofJson v.toJson :: ·) ih

theorem ofJson_int {n : Int} (h : Number.fits64 n = true) :
    ofJson (.int n) = .long (Int64.ofInt n) := by
  rw [ofJson, if_pos h]

end Value

namespace Scalar

variable {s : Scalar} {v : Value}

theorem toInt_long (n : Int32) : toInt (.long (Int64.ofInt n.toInt)) = .ok (.int n) := by
  have hn : (Int64.ofInt n.toInt).toInt = n.toInt := by
    have hlow := n.le_toInt
    have hhigh := n.toInt_lt
    exact Int64.toInt_ofInt_of_le (by omega) (by omega)
  obtain ⟨hread, -⟩ := toInt_denoted (.long (Int64.ofInt n.toInt))
  rw [hn, Int32.ofInt_toInt] at hread
  exact hread (Number.fits32_toInt n)

/-- What is left of a scalar in JSON is enough for its type. -/
theorem decode_toJson (hs : s ∈ plainScalars) (h : Encoded (.scalar s) v) :
    s.decode (Value.ofJson v.toJson) = .ok v := by
  cases h with
  | null => exact decode_null (.scalar s)
  | string | bool => rfl
  | int n =>
    rw [Value.toJson, Value.ofJson_int (Number.fits64_of_fits32 (Number.fits32_toInt n))]
    exact decode_of_coerced rfl rfl (toInt_long n)
  | long n =>
    rw [Value.toJson, Value.ofJson_int (Number.fits64_toInt n), Int64.ofInt_toInt]
    rfl
  | uuid u => exact decode_of_coerced rfl rfl (toUuid_text u)
  | double => exact absurd hs (by decide)
  | instant => exact absurd hs (by decide)

end Scalar

namespace Plain

variable {r : TypeRef} {u : UserType} {v : Value}

theorem storable (h : Plain r u) : Storable r u := by
  induction h with
  | scalar hs => exact .scalar (Scalar.ne_json hs)
  | wrapped w _ ih => exact .wrapped w ih

theorem decode_toJson (h : Plain r u) (hv : Encoded u v) :
    u.decode (Value.ofJson v.toJson) = .ok v := by
  induction h generalizing v with
  | scalar hs => exact Scalar.decode_toJson hs hv
  | @wrapped w r u _ ih =>
    cases hv with
    | null => rfl
    | @list _ _ _ vs items collected =>
      rw [Value.toJson, Value.ofJson, Value.ofJsonItems_eq_map]
      exact decode_list (fun x hx => ih (items x hx)) collected

end Plain

/-! ## Texts of containers -/

section
variable {vs : List Value} {id : String} {w : TypeRef.Wrapper} {u : UserType}

/-- The text of a list begins with a bracket, so that its items are read from it. -/
theorem items_text (hlib : Json.parse? (Value.list vs).toJson.text = some (Value.list vs).toJson) :
    UserType.items (.str (Value.list vs).toJson.text) =
      Value.ofJsonItems (Value.toJsonItems vs) := by
  have hchars : (Value.list vs).toJson.text.toList =
      '[' :: Json.charsItems (Value.toJsonItems vs) := String.toList_ofList
  have hbracket : Text.startsWith "[" (Text.trimStart (Value.list vs).toJson.text) = true := by
    have hblank : Text.isBlank '[' = false := by decide
    simp [Text.startsWith, Text.trimStart, Text.trimStartChars, hchars, hblank]
  unfold UserType.items
  dsimp only
  rw [if_pos hbracket, hlib]
  rfl

/-- A container is decoded from its text as it is from its tree. -/
theorem decode_listText
    (hlib : Json.parse? (Value.list vs).toJson.text = some (Value.list vs).toJson) :
    (UserType.collection id w u).decode (.str (Value.list vs).toJson.text) =
      (UserType.collection id w u).decode (Value.ofJson (Value.list vs).toJson) := by
  unfold UserType.decode UserType.convertCollection
  rw [items_text hlib]
  rfl

end

/-! ## Sending -/

/-- The dialect without arrays sends a list as its text. -/
theorem bind_container {b : Bind} (hb : (elementTypeId? b.typeId).isSome = true) (vs : List Value)
    (ps : BoundParams) (ctx : BindContext) :
    defaultBinders.bind Sql.Dialect.ansi.name StoreTarget.params ps ctx b (.list vs) =
      .ok (ps.set (ctx.position?.getD 1) (.jsonText (Value.list vs).toJson.text)) := by
  have hrefuses : timestampBinder.accepts ctx b (.list vs) = false := by
    simp [Binder.accepts, timestampBinder, slotBinder, Value.kind]
  have haccepts : containerBinder.accepts ctx b (.list vs) = true := by
    simpa [Binder.accepts, containerBinder, slotBinder, Value.kind] using hb
  have hfind : (Sql.slotBinders .ansi).find? (·.accepts ctx b (.list vs)) =
      some containerBinder := by
    simp only [Sql.slotBinders, List.find?_cons, hrefuses, haccepts]
  have hfirst := (congrArg (List.find? _) (Sql.candidates_params .ansi)).trans hfind
  exact Sql.bind_of_find? (T := storeTargets) (k := StoreTarget.params) hfirst ps

open TypeRef

/-- What is encoded as a list, set or array of plain elements is sent as JSON text by a dialect
without arrays, and decoded from that text, if the text is parsed as the tree that was printed. -/
theorem containers_sent {t : TypeTable} (ht : t.Own) {w : Wrapper} {inner : String} {e : TypeRef}
    {u : UserType} (hinner : parse inner = .ok e) (he : Plain e u) {x v : Value}
    (hencode : t.encode (w.around inner) x = .ok v) (hnull : v.isNull = false)
    (hlib : Json.parse? v.toJson.text = some v.toJson) {b : Bind} (hb : b.typeId = w.around inner)
    (ps : BoundParams) (ctx : BindContext) :
    defaultBinders.bind Sql.Dialect.ansi.name StoreTarget.params ps ctx b v =
        .ok (ps.set (ctx.position?.getD 1) (.jsonText v.toJson.text)) ∧
      t.decode (w.around inner) (.str v.toJson.text) = .ok v := by
  have hplain : Plain (w.wrap e) (.collection (w.wrap e).typeId w u) := .wrapped w he
  obtain ⟨-, hencodes, hdecodes⟩ :=
    TypeTable.get_storable ht (parse_around w hinner) hplain.storable
  rw [hencodes] at hencode
  have hencoded := hplain.storable.encoded hencode
  have hread := hplain.decode_toJson hencoded
  cases hencoded with
  | null => cases hnull
  | @list _ _ _ vs items collected =>
    constructor
    · refine bind_container ?_ vs ps ctx
      rw [hb, elementTypeId?_around]
      rfl
    · rw [hdecodes, decode_listText hlib, hread]

/-- Sets of lists of integers, one of which comes as a text. -/
theorem nestedContainers_sent :
    let t := TypeTable.ofDialect Sql.Dialect.ansi.name
    let id := "set<LIST< int>>"
    let x := Value.list [.list [.str " 7 ", .null], .list [.long 7, .null], .int 5]
    let v := Value.list [.list [.int 7, .null], .list [.int 5]]
    t.encode id x = .ok v ∧ ∀ ps ctx,
      defaultBinders.bind Sql.Dialect.ansi.name StoreTarget.params ps ctx ⟨x, id⟩ v =
          .ok (ps.set (ctx.position?.getD 1) (.jsonText "[[7,null],[5]]")) ∧
        t.decode id (.str "[[7,null],[5]]") = .ok v := by
  intro t id x v
  have ht : t.Own := TypeTable.own_ofDialect _
  have hid : id = Wrapper.set.around "LIST< int>" := by decide +kernel
  have hinner : parse "LIST< int>" = .ok (.list (.scalar "int")) := by
    have hint : parseChars " int".toList = .ok (.scalar "int") :=
      parseChars_of_readAs (.scalar nofun (by decide))
    exact parseChars_of_readAs (.wrapped (w := .list) (by decide) hint)
  have he : Plain (.list (.scalar "int")) (.collection "list<int>" .list (.scalar .int)) :=
    .wrapped .list (.scalar (s := .int) (by decide))
  have hencode : t.encode id x = .ok v := by
    have hplain := Plain.wrapped .set he
    obtain ⟨-, hencodes, -⟩ :=
      TypeTable.get_storable ht (parse_around .set hinner) hplain.storable
    rw [hid, hencodes]
    rfl
  have htext : v.toJson.text = "[[7,null],[5]]" := by decide +kernel
  have hlib : Json.parse? v.toJson.text = some v.toJson := by
    rw [htext]
    simp [Json.parse?, Json.parseRaw?, Json.value?, Json.items?, Json.skipSpace, Json.isSpace,
      Json.number?, Json.intOf, Number.digitsValue, UInt64.size, Json.maxDepth, Json.isFinite,
      Json.finiteItems, Json.merge, Json.mergeItems, Json.depth, Json.depthItems]
    rfl
  refine ⟨hencode, fun ps ctx => ?_⟩
  have hsent := containers_sent ht hinner he (hid ▸ hencode) rfl hlib (b := ⟨x, id⟩) hid ps ctx
  rwa [htext, ← hid] at hsent

end Polystore
