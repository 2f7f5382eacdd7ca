import Polystore.Proofs.Json.References

/-! # JSON trees read as values

A tree without parameters that is read as a value and written back has the keys of its objects in
order and doubles in the place of the whole numbers that no value holds. Only a tree that has its
keys in order and no such numbers comes back as it was. -/

namespace Polystore
set_option autoImplicit false

namespace Json

/-- No object in the tree is read as a parameter. -/
def Plain (j : Json) : Prop := ∀ name, ¬j.Mentions false name

theorem Plain.item {js : List Json} {j : Json} (h : (arr js).Plain) (hj : j ∈ js) : j.Plain :=
  fun name hname => h name (.item hj hname)

theorem Plain.member {ms : List (String × Json)} {m : String × Json} (h : (obj ms).Plain)
    (hm : m ∈ ms) : m.2.Plain := fun name hname => h name (.member hm hname)

theorem Plain.paramOf? {ms : List (String × Json)} (h : (obj ms).Plain) :
    Value.paramOf? ms = none := by
  cases hparam : Value.paramOf? ms with
  | none => rfl
  | some name =>
    obtain ⟨k, rfl, hkey⟩ := Value.paramOf?_eq_some.mp hparam
    exact absurd (.reference hkey) (h name)

mutual
/-- The tree with the keys of each object in order, and with the nearest doubles for the whole
numbers that do not fit 64 signed bits. -/
def arranged : Json → Json
  | int n => if Number.fits64 n then int n else float (Float.ofInt n)
  | arr items => arr (arrangedItems items)
  | obj members => obj (Entries.ofList (arrangedMembers members))
  | j => j
def arrangedItems : List Json → List Json
  | [] => []
  | j :: js => arranged j :: arrangedItems js
def arrangedMembers : List (String × Json) → List (String × Json)
  | [] => []
  | (k, j) :: ms => (k, arranged j) :: arrangedMembers ms
end

mutual
/-- Each object has its keys in order, and all whole numbers fit 64 signed bits. -/
def Arranged : Json → Prop
  | int n => Number.fits64 n = true
  | arr items => ArrangedItems items
  | obj members => Entries.Sorted members ∧ ArrangedMembers members
  | _ => True
def ArrangedItems : List Json → Prop
  | [] => True
  | j :: js => Arranged j ∧ ArrangedItems js
def ArrangedMembers : List (String × Json) → Prop
  | [] => True
  | (_, j) :: ms => Arranged j ∧ ArrangedMembers ms
end

theorem keys_arrangedMembers (ms : List (String × Json)) :
    (arrangedMembers ms).map (·.1) = ms.map (·.1) := by
  induction ms with
  | nil => rfl
  | cons m ms ih => rw [arrangedMembers, List.map_cons, List.map_cons, ih]

mutual
/-- These are the trees that are left as they are. -/
theorem arranged_eq_self : (j : Json) → (j.arranged = j ↔ j.Arranged)
  | .int n => by
    unfold arranged Arranged
    split <;> simp [*]
  | .arr items => by
    rw [arranged, Arranged, arr.injEq]
    exact arrangedItems_eq_self items
  | .obj ms => by
    rw [arranged, Arranged, obj.injEq, ← arrangedMembers_eq_self ms]
    constructor
    · intro h
      have hsorted : Entries.Sorted ms := h ▸ Entries.sorted_ofList _
      have hmembers : Entries.Sorted (arrangedMembers ms) := by
        rw [Entries.Sorted, keys_arrangedMembers]
        exact hsorted
      exact ⟨hsorted, (Entries.ofList_of_sorted hmembers).symm.trans h⟩
    · rintro ⟨hsorted, hmembers⟩
      rw [hmembers, Entries.ofList_of_sorted hsorted]
  | .null | .bool _ | .float _ | .str _ => by simp [arranged, Arranged]
theorem arrangedItems_eq_self : (js : List Json) → (arrangedItems js = js ↔ ArrangedItems js)
  | [] => by simp [arrangedItems, ArrangedItems]
  | j :: js => by
    rw [arrangedItems, ArrangedItems, List.cons.injEq, arranged_eq_self j,
      arrangedItems_eq_self js]
theorem arrangedMembers_eq_self :
    (ms : List (String × Json)) → (arrangedMembers ms = ms ↔ ArrangedMembers ms)
  | [] => by simp [arrangedMembers, ArrangedMembers]
  | (k, j) :: ms => by
    rw [arrangedMembers, ArrangedMembers, List.cons.injEq, Prod.mk.injEq, arranged_eq_self j,
      arrangedMembers_eq_self ms]
    simp
end

end Json

/-! ## Reading and writing back -/

namespace Value

theorem toJsonEntries_eq_map (es : List (String × Value)) :
    toJsonEntries es = es.map fun e => (e.1, e.2.toJson) := by
  induction es with
  | nil => rfl
  | cons e es ih => rw [toJsonEntries, ih, List.map_cons]

/-- No parameter is in a tree without references, so there is nothing to replace. -/
theorem resolve_ofJson {j : Json} (h : j.Plain) (params : Entries Value) :
    (ofJson j).resolve params = .ok (ofJson j) :=
  resolve_of_paramFree params _ fun name hname => h name (mentions_of_sources j (.of_param hname))

mutual
theorem toJson_ofJson : (j : Json) → j.Proper → j.Plain → (ofJson j).toJson = j.arranged
  | .null, _, _ => rfl
  | .bool _, _, _ => rfl
  | .int n, h, _ => by
    rw [ofJson, Json.arranged]
    split
    · rename_i hfits
      rw [toJson, Int64.toInt_ofInt_of_le (Number.fits64_iff.mp hfits).1
        (Number.fits64_iff.mp hfits).2]
    · rename_i hfits
      rw [toJson, if_pos (isFinite_ofInt h.1 h.2 (Bool.eq_false_iff.mpr hfits))]
  | .float d, h, _ => by
    have hfinite : d.isFinite = true := h
    rw [ofJson, toJson, if_pos hfinite]
    rfl
  | .str _, _, _ => rfl
  | .arr items, h, hplain => by
    rw [ofJson, toJson, toJsonItems_ofJsonItems items h fun _ hj => hplain.item hj, Json.arranged]
  | .obj ms, h, hplain => by
    rw [ofJson, hplain.paramOf?]
    dsimp only
    rw [toJson, toJsonEntries_eq_map, ← Entries.ofList_map, ← toJsonEntries_eq_map,
      toJsonEntries_ofJsonMembers ms h.2 fun _ hm => hplain.member hm, Json.arranged]
theorem toJsonItems_ofJsonItems : (js : List Json) → Json.ProperItems js → (∀ j ∈ js, j.Plain) →
    toJsonItems (ofJsonItems js) = Json.arrangedItems js
  | [], _, _ => rfl
  | j :: js, h, hplain => by
    obtain ⟨hj, hjs⟩ := List.forall_mem_cons.mp hplain
    rw [ofJsonItems, toJsonItems, toJson_ofJson j h.1 hj, toJsonItems_ofJsonItems js h.2 hjs,
      Json.arrangedItems]
theorem toJsonEntries_ofJsonMembers : (ms : List (String × Json)) → Json.ProperMembers ms →
    (∀ m ∈ ms, m.2.Plain) → toJsonEntries (ofJsonMembers ms) = Json.arrangedMembers ms
  | [], _, _ => rfl
  | (k, j) :: ms, h, hplain => by
    obtain ⟨hj, hms⟩ := List.forall_mem_cons.mp hplain
    rw [ofJsonMembers, toJsonEntries, toJson_ofJson j h.1 hj,
      toJsonEntries_ofJsonMembers ms h.2 hms, Json.arrangedMembers]
end

end Value
end Polystore
