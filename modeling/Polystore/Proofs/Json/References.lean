import Polystore.Json.Reading
import Polystore.Proofs.Query.Parameters
import Polystore.Proofs.Query.Portable

/-! # Parameters in JSON trees

An object with a text alone under `param` or `$param` is read as a parameter. The parameters of the
value that is read from a tree are these objects of it, as long as no object has a key twice, which
is so for all trees that are parsed. -/

namespace Polystore
set_option autoImplicit false

/-! ## References in JSON -/

namespace Json

/-- An object stands in the tree that is read as the parameter. If texts are opened, it may also
stand in the tree of a text that is JSON itself. -/
inductive Mentions (opened : Bool) (name : String) : Json → Prop
  | reference {k : String} (h : Value.isParamKey k = true) : Mentions opened name (.obj [(k, .str name)])
  | item {js : List Json} {j : Json} (hj : j ∈ js) (h : Mentions opened name j) :
    Mentions opened name (.arr js)
  | member {ms : List (String × Json)} {m : String × Json} (hm : m ∈ ms)
    (h : Mentions opened name m.2) : Mentions opened name (.obj ms)
  | text {s : String} {j : Json} (ho : opened = true) (hs : parse? s = some j)
    (h : Mentions opened name j) : Mentions opened name (.str s)

mutual
/-- No object of the tree has two members under one key. -/
def Distinct : Json → Prop
  | arr items => DistinctItems items
  | obj members => (members.map (·.1)).Nodup ∧ DistinctMembers members
  | _ => True
def DistinctItems : List Json → Prop
  | [] => True
  | j :: js => Distinct j ∧ DistinctItems js
def DistinctMembers : List (String × Json) → Prop
  | [] => True
  | (_, j) :: ms => Distinct j ∧ DistinctMembers ms
end

theorem distinctItems_iff {js : List Json} : DistinctItems js ↔ ∀ j ∈ js, Distinct j := by
  induction js with
  | nil => simp [DistinctItems]
  | cons j js ih => rw [DistinctItems, ih, List.forall_mem_cons]

theorem distinctMembers_iff {ms : List (String × Json)} :
    DistinctMembers ms ↔ ∀ m ∈ ms, Distinct m.2 := by
  induction ms with
  | nil => simp [DistinctMembers]
  | cons m ms ih => rw [DistinctMembers, ih, List.forall_mem_cons]

/-! ## Merged keys -/

section
variable {α : Type} {key : String} {v : α} {ms : List (String × α)}

theorem mem_put {m : String × α} (h : m ∈ put key v ms) : m = (key, v) ∨ m ∈ ms := by
  induction ms with
  | nil => exact .inl (List.mem_singleton.mp h)
  | cons e ms ih =>
    unfold put at h
    split at h
    · rcases List.mem_cons.mp h with hm | hm
      · exact .inl hm
      · exact .inr (List.mem_cons_of_mem e hm)
    · rcases List.mem_cons.mp h with hm | hm
      · exact .inr (hm ▸ List.mem_cons_self)
      · exact (ih hm).imp_right (List.mem_cons_of_mem e)

theorem nodup_put (h : (ms.map (·.1)).Nodup) : ((put key v ms).map (·.1)).Nodup := by
  induction ms with
  | nil => exact List.nodup_singleton key
  | cons e ms ih =>
    obtain ⟨hfirst, hrest⟩ := List.nodup_cons.mp h
    unfold put
    split
    case isTrue hkey => exact hkey ▸ h
    case isFalse hkey =>
      refine List.nodup_cons.mpr ⟨fun hmem => ?_, ih hrest⟩
      obtain ⟨m, hm, hkey'⟩ := List.mem_map.mp hmem
      rcases mem_put hm with rfl | hm
      · exact hkey hkey'.symm
      · exact hfirst (List.mem_map.mpr ⟨m, hm, hkey'⟩)

theorem foldl_put {acc : List (String × α)} (hacc : (acc.map (·.1)).Nodup) :
    ((ms.foldl (fun acc m => put m.1 m.2 acc) acc).map (·.1)).Nodup ∧
      ∀ m ∈ ms.foldl (fun acc m => put m.1 m.2 acc) acc, m ∈ acc ∨ m ∈ ms := by
  induction ms generalizing acc with
  | nil => exact ⟨hacc, fun m hm => .inl hm⟩
  | cons e ms ih =>
    obtain ⟨hnodup, hmem⟩ := ih (nodup_put hacc)
    refine ⟨hnodup, fun m hm => ?_⟩
    rcases hmem m hm with hput | hm
    · rcases mem_put hput with rfl | hm
      · exact .inr List.mem_cons_self
      · exact .inl hm
    · exact .inr (List.mem_cons_of_mem e hm)

/-- Each key of the members is kept once, with a value that it has among them. -/
theorem putAll_spec (ms : List (String × α)) :
    ((putAll ms).map (·.1)).Nodup ∧ ∀ m ∈ putAll ms, m ∈ ms := by
  obtain ⟨hnodup, hmem⟩ := @foldl_put α ms [] List.nodup_nil
  exact ⟨hnodup, fun m hm => (hmem m hm).resolve_left List.not_mem_nil⟩

end

mutual
theorem distinct_merge : (j : Json) → j.merge.Distinct
  | .arr items => distinct_mergeItems items
  | .obj members => by
    obtain ⟨hnodup, hmem⟩ := putAll_spec (mergeMembers members)
    exact ⟨hnodup, distinctMembers_iff.mpr fun m hm =>
      distinctMembers_iff.mp (distinct_mergeMembers members) m (hmem m hm)⟩
  | .null | .bool _ | .int _ | .float _ | .str _ => trivial
theorem distinct_mergeItems : (js : List Json) → DistinctItems (mergeItems js)
  | [] => trivial
  | j :: js => ⟨distinct_merge j, distinct_mergeItems js⟩
theorem distinct_mergeMembers : (ms : List (String × Json)) → DistinctMembers (mergeMembers ms)
  | [] => trivial
  | (_, j) :: ms => ⟨distinct_merge j, distinct_mergeMembers ms⟩
end

theorem distinct_parse? {s : String} {j : Json} (h : parse? s = some j) : j.Distinct := by
  unfold parse? at h
  split at h
  · split at h
    · cases h
      exact distinct_merge _
    · cases h
  · cases h

end Json

/-! ## Parameters of trees -/

namespace Value

theorem mem_ofJsonItems {js : List Json} {v : Value} :
    v ∈ ofJsonItems js ↔ ∃ j ∈ js, ofJson j = v := by
  induction js with
  | nil => simp [ofJsonItems]
  | cons j js ih => simp [ofJsonItems, ih, eq_comm]

/-- The tree that a value is read as where a type takes JSON. -/
def tree? : Value → Option Json
  | json j => some j
  | str s => Json.parse? s
  | _ => none

/-- A parameter of the value or, if texts and payloads are opened, one that an object in its JSON
is read as. -/
def Sources (opened : Bool) (name : String) (x : Value) : Prop :=
  ∃ w ∈ x.leaves, w = param name ∨ opened = true ∧ ∃ j, w.tree? = some j ∧ j.Mentions opened name

section
variable {opened : Bool} {name : String} {x v : Value}

theorem sources_list {vs : List Value} : (list vs).Sources opened name ↔ ∃ v ∈ vs, v.Sources opened name := by
  simp only [Sources, leaves, mem_itemLeaves]
  exact ⟨fun ⟨w, ⟨v, hv, hw⟩, h⟩ => ⟨v, hv, w, hw, h⟩, fun ⟨v, hv, w, hw, h⟩ => ⟨w, ⟨v, hv, hw⟩, h⟩⟩

theorem sources_map {es : List (String × Value)} :
    (map es).Sources opened name ↔ ∃ e ∈ es, e.2.Sources opened name := by
  simp only [Sources, leaves, mem_entryLeaves]
  exact ⟨fun ⟨w, ⟨v, hv, hw⟩, h⟩ => ⟨v, hv, w, hw, h⟩, fun ⟨v, hv, w, hw, h⟩ => ⟨w, ⟨v, hv, hw⟩, h⟩⟩

theorem Sources.of_tree {j : Json} (hx : x.tree? = some j) (h : j.Mentions true name) :
    x.Sources true name := by
  refine ⟨x, ?_, .inr ⟨rfl, j, hx, h⟩⟩
  cases x with
  | json j => exact List.mem_cons_self
  | str s => exact List.mem_cons_self
  | _ => cases hx

theorem Sources.of_param (h : param name ∈ v.leaves) : v.Sources opened name := ⟨_, h, .inl rfl⟩

mutual
/-- What is read from a tree has no other parameters than the objects in it. -/
theorem mentions_of_sources : (j : Json) → (ofJson j).Sources opened name → j.Mentions opened name
  | .arr items, h => by
    obtain ⟨v, hv, hname⟩ := sources_list.mp h
    obtain ⟨j, hj, hmentions⟩ := mentions_of_sources_items items v hv hname
    exact .item hj hmentions
  | .obj ms, h => by
    rw [ofJson] at h
    split at h
    · rename_i hparam
      obtain ⟨k, rfl, hkey⟩ := paramOf?_eq_some.mp hparam
      obtain ⟨w, hw, rfl | ⟨-, j, hj, -⟩⟩ := h
      · cases List.mem_singleton.mp hw
        exact .reference hkey
      · cases List.mem_singleton.mp hw
        cases hj
    · obtain ⟨e, he, hname⟩ := sources_map.mp h
      obtain ⟨m, hm, hmentions⟩ := mentions_of_sources_members ms e (Entries.mem_ofList he) hname
      exact .member hm hmentions
  | .str s, h => by
    obtain ⟨w, hw, rfl | ⟨ho, j, hj, hmentions⟩⟩ := h
    · cases List.mem_singleton.mp hw
    · cases List.mem_singleton.mp hw
      exact .text ho hj hmentions
  | .int n, h => by
    rw [ofJson] at h
    split at h
    all_goals
      obtain ⟨w, hw, rfl | ⟨-, j, hj, -⟩⟩ := h <;> cases List.mem_singleton.mp hw
      cases hj
  | .null, h | .bool _, h | .float _, h => by
    obtain ⟨w, hw, rfl | ⟨-, j, hj, -⟩⟩ := h <;> cases List.mem_singleton.mp hw
    cases hj
theorem mentions_of_sources_items : (js : List Json) → ∀ v ∈ ofJsonItems js, v.Sources opened name →
    ∃ j ∈ js, j.Mentions opened name
  | [], v, hv, _ => nomatch hv
  | j :: js, v, hv, h => by
    rcases List.mem_cons.mp hv with rfl | hv
    · exact ⟨j, List.mem_cons_self, mentions_of_sources j h⟩
    · obtain ⟨j', hj', hmentions⟩ := mentions_of_sources_items js v hv h
      exact ⟨j', List.mem_cons_of_mem j hj', hmentions⟩
theorem mentions_of_sources_members : (ms : List (String × Json)) → ∀ e ∈ ofJsonMembers ms,
    e.2.Sources opened name → ∃ m ∈ ms, m.2.Mentions opened name
  | [], e, he, _ => nomatch he
  | (k, j) :: ms, e, he, h => by
    rcases List.mem_cons.mp he with rfl | he
    · exact ⟨(k, j), List.mem_cons_self, mentions_of_sources j h⟩
    · obtain ⟨m, hm, hmentions⟩ := mentions_of_sources_members ms e he h
      exact ⟨m, List.mem_cons_of_mem _ hm, hmentions⟩
end

theorem param_of_mentions {j : Json} (h : j.Mentions false name) (hj : j.Distinct) :
    param name ∈ (ofJson j).leaves := by
  induction h with
  | reference hkey =>
    rw [ofJson, paramOf?_eq_some.mpr ⟨_, rfl, hkey⟩]
    exact List.mem_cons_self
  | @item js j hmem _ ih =>
    have hdistinct : j.Distinct := Json.distinctItems_iff.mp hj j hmem
    exact mem_itemLeaves.mpr ⟨ofJson j, mem_ofJsonItems.mpr ⟨j, hmem, rfl⟩, ih hdistinct⟩
  | @member ms m hm hmentions ih =>
    have hdistinct : m.2.Distinct := Json.distinctMembers_iff.mp hj.2 m hm
    have hplain : paramOf? ms = none := by
      rw [Option.eq_none_iff_forall_ne_some]
      intro n hn
      obtain ⟨k, rfl, -⟩ := paramOf?_eq_some.mp hn
      cases List.mem_singleton.mp hm
      cases hmentions with
      | text ho => cases ho
    rw [ofJson, hplain]
    refine mem_entryLeaves.mpr ⟨(m.1, ofJson m.2), ?_, ih hdistinct⟩
    exact Entries.mem_ofList_of_mem (keys_ofJsonMembers ms ▸ hj.1) (mem_ofJsonMembers hm)
  | text ho => cases ho

/-- The parameters that a tree is read with are the objects in it. -/
theorem param_mem_ofJson {j : Json} (hj : j.Distinct) :
    param name ∈ (ofJson j).leaves ↔ j.Mentions false name :=
  ⟨fun h => mentions_of_sources j (.of_param h), fun h => param_of_mentions h hj⟩

end
end Value

end Polystore
