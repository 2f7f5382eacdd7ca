import Polystore.Proofs.Json.Strings
import Polystore.Proofs.Types.References

/-! # JSON columns

Stores of columns are given JSON as text: a value as it is printed, and a text as it is. What is
read back is what was written, but for texts that are JSON, which are read as the values they spell.
-/

namespace Polystore
set_option autoImplicit false

namespace Scalar

variable {v : Value}

theorem encode_json (v : Value) : json.encode v = .ok (encodeTree v) := rfl

/-- A value that is printed comes back when it is parsed, if the printed tree does. -/
theorem toTree_encodeTree (hv : v.Portable) (htext : ∀ s, v ≠ .str s)
    (hlib : Json.parse? v.toJson.text = some v.toJson) : toTree (encodeTree v) = v := by
  have hback : Value.ofJson v.toJson = v := Value.ofJson_toJson v hv
  have hprinted : encodeTree v = .null ∧ v = .null ∨ encodeTree v = .str v.toJson.text := by
    cases v with
    | null => exact .inl ⟨rfl, rfl⟩
    | str s => exact absurd rfl (htext s)
    | _ => exact .inr rfl
  obtain ⟨henc, rfl⟩ | henc := hprinted
  · rfl
  · rw [henc]
    simp only [toTree, hlib, hback]

theorem toTree_str_eq {s : String} : toTree (.str s) = .str s ↔ Json.parse? s = none := by
  cases hparse : Json.parse? s with
  | none => simp only [toTree, hparse]
  | some j =>
    simp only [toTree, hparse, reduceCtorEq, iff_false]
    intro h
    rw [Value.ofJson_eq_str h] at hparse
    exact absurd (Json.parse?_str hparse) (Nat.lt_irrefl _)

end Scalar

open TypeTable (documentDialect)

/-- Where JSON is stored as text, a value that JSON carries is read back as it was written exactly
if it is no text of JSON; such a text is stored as it is and read as what it spells. -/
theorem json_columns {dialect : String} (hdialect : dialect ≠ documentDialect) {v : Value}
    (hv : v.Portable) (hlib : Json.parse? v.toJson.text = some v.toJson) :
    let t := TypeTable.ofDialect dialect
    ∃ w, t.encode "json" v = .ok w ∧
      (t.decode "json" w = .ok v ↔ ∀ s, v = .str s → Json.parse? s = none) ∧
      ∀ s j, v = .str s → Json.parse? s = some j →
        w = .str s ∧ t.decode "json" w = .ok (Value.ofJson j) := by
  intro t
  have hget : t.get "json" = .ok (.scalar .json) := by
    rw [TypeTable.get_json dialect (by decide), if_neg hdialect]
  have hencode (x : Value) : t.encode "json" x = .ok (Scalar.encodeTree x) := by
    rw [TypeTable.encode, hget]
    exact Scalar.encode_json x
  have hdecode (x : Value) : t.decode "json" x = .ok (Scalar.toTree x) := by
    rw [TypeTable.decode, hget]
    exact Scalar.decode_json x
  refine ⟨Scalar.encodeTree v, hencode v, ?_, ?_⟩
  · rw [hdecode, Except.ok.injEq]
    by_cases htext : ∃ s, v = .str s
    · obtain ⟨s, rfl⟩ := htext
      rw [Scalar.encodeTree, Scalar.toTree_str_eq]
      exact ⟨fun h s' hs' => Value.str.inj hs' ▸ h, fun h => h s rfl⟩
    · have hnone : ∀ s, v ≠ .str s := fun s hs => htext ⟨s, hs⟩
      exact iff_of_true (Scalar.toTree_encodeTree hv hnone hlib) fun s hs => absurd hs (hnone s)
  · rintro s j rfl hparse
    refine ⟨rfl, ?_⟩
    rw [hdecode, Scalar.encodeTree]
    simp only [Scalar.toTree, hparse]

/-- A number and a text of the same digits keep apart in a list. -/
theorem listColumn_read :
    let t := TypeTable.ofDialect "postgres"
    let v := Value.list [.long 5, .str "5"]
    ∃ w, t.encode "json" v = .ok w ∧ t.decode "json" w = .ok v := by
  intro t v
  have htext : v.toJson.text = "[5,\"5\"]" := by decide +kernel
  have hlib : Json.parse? v.toJson.text = some v.toJson := by
    rw [htext]
    simp [Json.parse?, Json.parseRaw?, Json.value?, Json.items?, Json.skipSpace, Json.isSpace,
      Json.string?, Json.number?, Json.intOf, Number.digitsValue, UInt64.size, Json.maxDepth,
      Json.isFinite, Json.finiteItems, Json.merge, Json.mergeItems, Json.depth, Json.depthItems]
    rfl
  have hv : v.Portable := ⟨trivial, trivial, trivial⟩
  obtain ⟨w, hencode, hread, -⟩ := @json_columns "postgres" (by decide) v hv hlib
  have hlist (s : String) : Value.list [.long 5, .str "5"] ≠ .str s := by
    intro h
    cases h
  exact ⟨w, hencode, hread.mpr fun s hs => absurd hs (hlist s)⟩

/-- By itself the text is read as the number. -/
theorem digitText_misread :
    let t := TypeTable.ofDialect "postgres"
    let v := Value.str "5"
    Json.parse? v.toJson.text = some v.toJson ∧ t.encode "json" v = .ok (.str "5") ∧
      t.decode "json" (.str "5") = .ok (.long 5) ∧ t.decode "json" (.str "5") ≠ .ok v := by
  intro t v
  have hdecode : t.decode "json" (.str "5") = .ok (.long 5) := by
    have hparse : Json.parse? "5" = some (.int 5) := by
      simp [Json.parse?, Json.parseRaw?, Json.value?, Json.skipSpace, Json.isSpace, Json.number?,
        Json.intOf, Number.digitsValue, UInt64.size, Json.maxDepth, Json.isFinite, Json.merge,
        Json.depth]
    have hget : t.get "json" = .ok (.scalar .json) := by
      rw [TypeTable.get_json "postgres" (by decide), if_neg (by decide)]
    have htree : Scalar.toTree (.str "5") = .long 5 := by
      simp only [Scalar.toTree, hparse]
      rfl
    rw [TypeTable.decode, hget, ← htree]
    exact Scalar.decode_json (.str "5")
  refine ⟨?_, rfl, hdecode, ?_⟩
  · have htext : v.toJson.text = "\"5\"" := by decide +kernel
    rw [htext]
    simp [Json.parse?, Json.parseRaw?, Json.value?, Json.skipSpace, Json.isSpace, Json.string?,
      Json.maxDepth, Json.isFinite, Json.merge, Json.depth]
    rfl
  · rw [hdecode]
    exact fun h => Value.noConfusion (Except.ok.inj h)

end Polystore
