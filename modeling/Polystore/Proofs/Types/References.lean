import Polystore.Proofs.Json.References
import Polystore.Proofs.Types.Settling

/-! # Parameters in decoded values

An object that is read as a parameter is one also where it is data: in a JSON payload, in a text
that is JSON, and in a text inside one of these that is JSON again. No parameter of a decoded value
comes from anywhere else, and none at all where the type has no `json` in it. -/

namespace Polystore
set_option autoImplicit false

theorem Scalar.decode_json (x : Value) : Scalar.json.decode x = .ok (Scalar.toTree x) := by
  cases x <;> rfl

namespace UserType
open Value (Sources)

variable {name : String} {x v : Value}

/-- Whether there is a type of JSON in the type. Keys of maps become texts whatever their type is. -/
def readsJson : UserType → Bool
  | scalar s => s == .json
  | nativeJson => true
  | collection _ _ elem => elem.readsJson
  | map _ _ value => value.readsJson

theorem sources_toList {i : Value} (hi : i ∈ x.toList) (h : i.Sources true name) :
    x.Sources true name := by
  unfold Value.toList at hi
  split at hi
  · cases hi
  · exact Value.sources_list.mpr ⟨i, hi, h⟩
  · obtain ⟨j, hj, hmentions⟩ := Value.mentions_of_sources_items _ i hi h
    exact .of_tree rfl (.item hj hmentions)
  · exact List.mem_singleton.mp hi ▸ h

theorem sources_items {i : Value} (hi : i ∈ items x) (h : i.Sources true name) :
    x.Sources true name := by
  unfold items at hi
  split at hi
  · rename_i s
    split at hi
    · split at hi
      · rename_i js hparse
        obtain ⟨j, hj, hmentions⟩ := Value.mentions_of_sources_items js i hi h
        exact .of_tree (x := .str s) hparse (.item hj hmentions)
      · exact List.mem_singleton.mp hi ▸ h
    · exact List.mem_singleton.mp hi ▸ h
  · exact sources_toList hi h

theorem mentions_of_entries {ms : List (String × Json)} {es : Document} {e : String × Value}
    (hes : (Value.ofJson (.obj ms)).map? = some es) (he : e ∈ es) (h : e.2.Sources true name) :
    (Json.obj ms).Mentions true name := by
  rw [Value.ofJson] at hes
  split at hes
  · cases hes
  · cases hes
    obtain ⟨m, hm, hmentions⟩ := Value.mentions_of_sources_members ms e (Entries.mem_ofList he) h
    exact .member hm hmentions

theorem sources_entries {es : Document} {e : String × Value} (hes : entries? x = some es)
    (he : e ∈ es) (h : e.2.Sources true name) : x.Sources true name := by
  unfold entries? at hes
  split at hes
  · cases hes
    exact Value.sources_map.mpr ⟨e, he, h⟩
  · exact .of_tree rfl (mentions_of_entries hes he h)
  · rename_i s
    split at hes
    · rename_i ms hparse
      exact .of_tree (x := .str s) hparse (mentions_of_entries hes he h)
    · cases hes
  · cases hes

theorem exists_of_mem_convertItems {f : Value → Except CodecError Value} {xs vs : List Value}
    (h : convertItems f xs = .ok vs) (hv : v ∈ vs) : ∃ x ∈ xs, f x = .ok v := by
  induction xs generalizing vs with
  | nil =>
    cases h
    cases hv
  | cons x xs ih =>
    obtain ⟨w, hw, h⟩ := bind_eq_ok.mp h
    obtain ⟨ws, hws, h⟩ := bind_eq_ok.mp h
    cases h
    rcases List.mem_cons.mp hv with rfl | hv
    · exact ⟨x, List.mem_cons_self, hw⟩
    · obtain ⟨x', hx', hv'⟩ := ih hws hv
      exact ⟨x', List.mem_cons_of_mem x hx', hv'⟩

theorem exists_of_mem_convertEntries {f g : Value → Except CodecError Value}
    {done m : Document} {es : List (String × Value)} (h : convertEntries f g done es = .ok m)
    {e : String × Value} (he : e ∈ m) : e ∈ done ∨ ∃ e' ∈ es, f e'.2 = .ok e.2 := by
  induction es generalizing done with
  | nil =>
    cases h
    exact .inl he
  | cons e' es ih =>
    obtain ⟨k, -, h⟩ := bind_eq_ok.mp h
    obtain ⟨w, hw, h⟩ := bind_eq_ok.mp h
    rcases ih h with hdone | ⟨e'', he'', hconverted⟩
    · rcases Entries.mem_insert hdone with rfl | hmem
      · exact .inr ⟨e', List.mem_cons_self, hw⟩
      · exact .inl hmem
    · exact .inr ⟨e'', List.mem_cons_of_mem e' he'', hconverted⟩

theorem sources_ofTree {j : Json} (hx : x.tree? = some j) (h : .param name ∈ (Value.ofJson j).leaves) :
    x.Sources true name :=
  .of_tree hx (Value.mentions_of_sources j (.of_param h))

theorem toTree_sources (h : .param name ∈ (Scalar.toTree x).leaves) : x.Sources true name := by
  unfold Scalar.toTree at h
  split at h
  · rename_i s
    split at h
    · rename_i j hparse
      exact sources_ofTree (x := .str s) hparse h
    · cases List.mem_singleton.mp h
  · exact sources_ofTree rfl h
  · exact .of_param h

theorem decodeNative_sources (h : .param name ∈ (decodeNative x).leaves) : x.Sources true name := by
  unfold decodeNative at h
  split at h
  · exact sources_ofTree rfl h
  · rename_i s
    split at h
    · rename_i j hparse
      split at h
      · exact sources_ofTree (x := .str s) hparse h
      · cases List.mem_singleton.mp h
    · cases List.mem_singleton.mp h
  · exact .of_param h

theorem paramFree_encoded {s : Scalar} (h : Encoded (.scalar s) v) : v.ParamFree := by
  intro name hname
  cases h <;> cases List.mem_singleton.mp hname

/-- A parameter of a decoded value has its source in what was decoded, where a type of JSON met it. -/
theorem decode_sources (u : UserType) (h : u.decode x = .ok v) (hname : .param name ∈ v.leaves) :
    u.readsJson = true ∧ x.Sources true name := by
  induction u generalizing x v with
  | scalar s =>
    by_cases hs : s = .json
    · subst hs
      rw [decode, Scalar.decode_json] at h
      cases h
      exact ⟨rfl, toTree_sources hname⟩
    · exact absurd hname (paramFree_encoded (scalar_encoded hs ((Scalar.encode_eq_ok hs).mpr h)) name)
  | nativeJson =>
    cases h
    exact ⟨rfl, decodeNative_sources hname⟩
  | collection id kind elem ih =>
    rcases convertCollection_eq_ok.mp h with ⟨-, rfl⟩ | ⟨-, vs, hvs, rfl⟩
    · cases List.mem_singleton.mp hname
    · obtain ⟨w, hw, hleaf⟩ := Value.mem_itemLeaves.mp hname
      have hmem : w ∈ vs := by
        split at hw
        · exact Value.mem_of_mem_dedup hw
        · exact hw
      obtain ⟨i, hi, hconverted⟩ := exists_of_mem_convertItems hvs hmem
      obtain ⟨hreads, hsources⟩ := ih hconverted hleaf
      exact ⟨hreads, sources_items hi hsources⟩
  | map id key value ihkey ih =>
    change convertMap id key.decode value.decode x = .ok v at h
    unfold convertMap at h
    split at h
    · cases h
      cases List.mem_singleton.mp hname
    · split at h
      · cases h
      · rename_i es hes
        obtain ⟨m, hm, rfl⟩ := map_eq_ok.mp h
        obtain ⟨e, he, hleaf⟩ := Value.mem_entryLeaves.mp hname
        obtain ⟨e', he', hconverted⟩ :=
          (exists_of_mem_convertEntries hm he).resolve_left List.not_mem_nil
        obtain ⟨hreads, hsources⟩ := ih hconverted hleaf
        exact ⟨hreads, sources_entries hes he' hsources⟩

/-! ## JSON itself -/

theorem isTree_of_mentions {j : Json} (h : j.Mentions false name) : isTree j = true := by
  cases h with
  | text ho => cases ho
  | _ => rfl

theorem not_mentions_of_none : ¬∃ j : Json, none = some j ∧ j.Mentions false name := by
  rintro ⟨j, hj, -⟩
  cases hj

section
variable (hx : x.ParamFree) (hpayload : ∀ j, x = .json j → j.Distinct)
include hx hpayload

theorem param_mem_toTree : .param name ∈ (Scalar.toTree x).leaves ↔
    ∃ j, x.tree? = some j ∧ j.Mentions false name := by
  cases x with
  | str s =>
    unfold Scalar.toTree Value.tree?
    cases hparse : Json.parse? s with
    | none => simp [hparse, Value.leaves]
    | some j => simp [hparse, Value.param_mem_ofJson (Json.distinct_parse? hparse)]
  | json j => simp [Scalar.toTree, Value.tree?, Value.param_mem_ofJson (hpayload j rfl)]
  | _ => exact iff_of_false (hx name) not_mentions_of_none

theorem param_mem_decodeNative : .param name ∈ (decodeNative x).leaves ↔
    ∃ j, x.tree? = some j ∧ j.Mentions false name := by
  cases x with
  | str s =>
    unfold decodeNative Value.tree?
    cases hparse : Json.parse? s with
    | none => simp [hparse, Value.leaves]
    | some j =>
      cases htree : isTree j with
      | true => simp [hparse, htree, Value.param_mem_ofJson (Json.distinct_parse? hparse)]
      | false =>
        have hnone : ¬j.Mentions false name := fun h => by
          rw [isTree_of_mentions h] at htree
          cases htree
        simp [hparse, htree, hnone, Value.leaves]
  | json j => simp [decodeNative, Value.tree?, Value.param_mem_ofJson (hpayload j rfl)]
  | _ => exact iff_of_false (hx name) not_mentions_of_none

end

end UserType

namespace TypeTable

theorem get_json (dialect : String) {id : String} (hid : Text.trim id = Scalar.json.id) :
    (ofDialect dialect).get id =
      .ok (if dialect = documentDialect then .nativeJson else .scalar .json) := by
  unfold get ofDialect
  rw [hid]
  by_cases hdialect : dialect = documentDialect
  · subst hdialect
    rfl
  · rw [if_neg (mt beq_iff_eq.mp hdialect), if_neg hdialect]
    rfl

end TypeTable

/-- A value is decoded to one with a parameter only where JSON in it has an object that is read as
the parameter and the type has `json` in it; and `json` itself gives all of these parameters. -/
theorem decoded_parameters (dialect : String) {id : String} {x v : Value} (hx : x.ParamFree)
    (hpayload : ∀ j, x = .json j → j.Distinct) :
    let t := TypeTable.ofDialect dialect
    t.decode id x = .ok v →
      (∀ name, .param name ∈ v.leaves →
        ∃ w ∈ x.leaves, ∃ j, w.tree? = some j ∧ j.Mentions true name) ∧
      (∀ u, t.get id = .ok u → u.readsJson = false → v.ParamFree) ∧
      (Text.trim id = "json" → ∀ name,
        .param name ∈ v.leaves ↔ ∃ j, x.tree? = some j ∧ j.Mentions false name) := by
  intro t h
  obtain ⟨u, hu, h⟩ := bind_eq_ok.mp h
  refine ⟨fun name hname => ?_, fun u' hu' hreads name hname => ?_, fun hid name => ?_⟩
  · obtain ⟨-, w, hw, rfl | ⟨-, hj⟩⟩ := u.decode_sources h hname
    · exact absurd hw (hx name)
    · exact ⟨w, hw, hj⟩
  · cases hu.symm.trans hu'
    rw [(u.decode_sources h hname).1] at hreads
    cases hreads
  · cases hu.symm.trans (TypeTable.get_json dialect hid)
    split at h
    · cases h
      exact UserType.param_mem_decodeNative hx hpayload
    · rw [UserType.decode, Scalar.decode_json] at h
      cases h
      exact UserType.param_mem_toTree hx hpayload

/-- A text that is JSON is decoded to the parameter that its only member reads as. -/
theorem referenceText_decoded :
    let t := TypeTable.ofDialect "postgres"
    let x := Value.str "\x7b\"param\":\"x\"\x7d"
    x.ParamFree ∧ t.decode "json" x = .ok (.param "x") ∧
      ∃ j, x.tree? = some j ∧ j.Mentions false "x" := by
  intro t x
  have hparse : Json.parse? "\x7b\"param\":\"x\"\x7d" = some (.obj [("param", .str "x")]) := by
    simp [Json.parse?, Json.parseRaw?, Json.value?, Json.members?, Json.skipSpace, Json.isSpace,
      Json.string?, Json.maxDepth, Json.isFinite, Json.finiteMembers, Json.merge, Json.mergeMembers,
      Json.putAll, Json.put, Json.depth, Json.depthMembers]
  have hx : x.ParamFree := by simp [x, Value.ParamFree, Value.leaves]
  have htree : Scalar.toTree x = .param "x" := by
    simp only [x, Scalar.toTree, hparse]
    rfl
  have hget : t.get "json" = .ok (.scalar .json) := by
    rw [TypeTable.get_json "postgres" (by decide), if_neg (by decide)]
  have hdecode : t.decode "json" x = .ok (.param "x") := by
    rw [TypeTable.decode, hget, ← htree]
    exact Scalar.decode_json x
  obtain ⟨-, -, hjson⟩ := decoded_parameters "postgres" hx nofun hdecode
  exact ⟨hx, hdecode, (hjson (by decide) "x").mp List.mem_cons_self⟩

end Polystore
