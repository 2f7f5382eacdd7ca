import Polystore.Proofs.Entries
import Polystore.Proofs.Number.Bounds
import Polystore.Proofs.Number.Rounding
import Polystore.Value.Basic

/-! # Values that JSON carries

Values of some kinds are written as JSON and read back as the same value. Everything that is read
from JSON is made of these kinds: whole numbers are longs, and a map that would look like a
parameter is one. -/

namespace Polystore
set_option autoImplicit false

/-! ## JSON as it is parsed -/

namespace Json

mutual
/-- Whole numbers have at most 64 bits, all others are finite, and no key is repeated. -/
def Proper : Json → Prop
  | int n => Int64.minValue.toInt ≤ n ∧ n < 2 ^ 64
  | float d => d.isFinite = true
  | arr items => ProperItems items
  | obj members => (members.map (·.1)).Nodup ∧ ProperMembers members
  | _ => True
def ProperItems : List Json → Prop
  | [] => True
  | j :: js => Proper j ∧ ProperItems js
def ProperMembers : List (String × Json) → Prop
  | [] => True
  | (_, j) :: ms => Proper j ∧ ProperMembers ms
end

theorem properItems_iff {js : List Json} : ProperItems js ↔ ∀ j ∈ js, Proper j := by
  induction js with
  | nil => simp [ProperItems]
  | cons j js ih => rw [ProperItems, ih, List.forall_mem_cons]

theorem properMembers_iff {ms : List (String × Json)} : ProperMembers ms ↔ ∀ m ∈ ms, Proper m.2 := by
  induction ms with
  | nil => simp [ProperMembers]
  | cons m ms ih => rw [ProperMembers, ih, List.forall_mem_cons]

end Json

/-! ## Portable values -/

namespace Value

/-- The single key under which a text is a parameter. -/
def isParamKey (k : String) : Bool := k == "param" || k == "$param"

mutual
/-- Null, truth values, longs, finite doubles, texts and parameters, and the lists and maps of
these, but no map with a text alone under a key of parameters. -/
def Portable : Value → Prop
  | null => True
  | bool _ => True
  | long _ => True
  | double d => d.isFinite = true
  | str _ => True
  | param _ => True
  | list items => PortableItems items
  | map entries => Entries.Sorted entries ∧
      (∀ k s, entries = [(k, str s)] → isParamKey k = false) ∧ PortableEntries entries
  | _ => False
def PortableItems : List Value → Prop
  | [] => True
  | v :: vs => Portable v ∧ PortableItems vs
def PortableEntries : List (String × Value) → Prop
  | [] => True
  | (_, v) :: es => Portable v ∧ PortableEntries es
end

theorem portableEntries_iff {es : List (String × Value)} :
    PortableEntries es ↔ ∀ e ∈ es, Portable e.2 := by
  induction es with
  | nil => simp [PortableEntries]
  | cons e es ih => rw [PortableEntries, ih, List.forall_mem_cons]

/-! ## Writing and reading back -/

theorem paramOf?_eq_some {ms : List (String × Json)} {name : String} :
    paramOf? ms = some name ↔ ∃ k, ms = [(k, .str name)] ∧ isParamKey k = true := by
  unfold paramOf?
  split
  · rename_i k name'
    constructor
    · intro h
      split at h
      · rename_i hkey
        cases h
        exact ⟨k, rfl, hkey⟩
      · cases h
    · rintro ⟨k', heq, hkey⟩
      cases heq
      exact if_pos hkey
  · rename_i hne
    constructor
    · nofun
    · rintro ⟨k, rfl, -⟩
      exact absurd rfl (hne k name)

theorem toJson_eq_str {v : Value} {s : String} (hv : v.Portable) (h : v.toJson = .str s) :
    v = .str s := by
  cases v with
  | str t => exact congrArg Value.str (Json.str.inj h)
  | double d =>
    unfold toJson at h
    split at h <;> cases h
  | uuid u => cases hv
  | instant t => cases hv
  | json j => cases hv
  | _ => cases h

theorem paramOf?_toJsonEntries {es : List (String × Value)} (hes : PortableEntries es)
    (h : ∀ k s, es = [(k, str s)] → isParamKey k = false) : paramOf? (toJsonEntries es) = none := by
  cases hparam : paramOf? (toJsonEntries es) with
  | none => rfl
  | some name =>
    obtain ⟨k, hms, hkey⟩ := paramOf?_eq_some.mp hparam
    cases es with
    | nil => simp [toJsonEntries] at hms
    | cons e rest =>
      obtain ⟨k', v⟩ := e
      cases rest with
      | cons e' rest => simp [toJsonEntries] at hms
      | nil =>
        obtain ⟨rfl, hv⟩ : k' = k ∧ v.toJson = .str name := by simpa [toJsonEntries] using hms
        rw [toJson_eq_str hes.1 hv] at h
        rw [h k' name rfl] at hkey
        cases hkey

mutual
theorem ofJson_toJson : (v : Value) → v.Portable → ofJson v.toJson = v
  | null, _ => rfl
  | bool _, _ => rfl
  | long n, _ => by
    rw [toJson, ofJson, if_pos (Number.fits64_toInt n), Int64.ofInt_toInt]
  | double d, h => by
    have hfinite : d.isFinite = true := h
    rw [toJson, if_pos hfinite, ofJson]
  | str _, _ => rfl
  | param _, _ => rfl
  | list items, h => by
    rw [toJson, ofJson, ofJsonItems_toJsonItems items h]
  | map entries, h => by
    obtain ⟨hsorted, hparam, hentries⟩ := h
    rw [toJson, ofJson, paramOf?_toJsonEntries hentries hparam]
    dsimp only
    rw [ofJsonMembers_toJsonEntries entries hentries, Entries.ofList_of_sorted hsorted]
theorem ofJsonItems_toJsonItems : (vs : List Value) → PortableItems vs →
    ofJsonItems (toJsonItems vs) = vs
  | [], _ => rfl
  | v :: vs, h => by
    rw [toJsonItems, ofJsonItems, ofJson_toJson v h.1, ofJsonItems_toJsonItems vs h.2]
theorem ofJsonMembers_toJsonEntries : (es : List (String × Value)) → PortableEntries es →
    ofJsonMembers (toJsonEntries es) = es
  | [], _ => rfl
  | (k, v) :: es, h => by
    rw [toJsonEntries, ofJsonMembers, ofJson_toJson v h.1, ofJsonMembers_toJsonEntries es h.2]
end

theorem keys_toJsonEntries (es : List (String × Value)) :
    (toJsonEntries es).map (·.1) = es.map (·.1) := by
  induction es with
  | nil => rfl
  | cons e es ih => rw [toJsonEntries, List.map_cons, List.map_cons, ih]

mutual
theorem proper_toJson : (v : Value) → v.Portable → v.toJson.Proper
  | null, _ => trivial
  | bool _, _ => trivial
  | long n, _ => ⟨n.le_toInt, Int.lt_trans n.toInt_lt (by decide)⟩
  | double d, h => by
    have hfinite : d.isFinite = true := h
    rw [toJson, if_pos hfinite]
    exact hfinite
  | str _, _ => trivial
  | param _, _ => ⟨List.pairwise_singleton _ _, trivial, trivial⟩
  | list items, h => proper_toJsonItems items h
  | map entries, h => by
    refine ⟨?_, proper_toJsonEntries entries h.2.2⟩
    rw [keys_toJsonEntries]
    exact Entries.nodup_keys h.1
theorem proper_toJsonItems : (vs : List Value) → PortableItems vs →
    Json.ProperItems (toJsonItems vs)
  | [], _ => trivial
  | v :: vs, h => ⟨proper_toJson v h.1, proper_toJsonItems vs h.2⟩
theorem proper_toJsonEntries : (es : List (String × Value)) → PortableEntries es →
    Json.ProperMembers (toJsonEntries es)
  | [], _ => trivial
  | (_, v) :: es, h => ⟨proper_toJson v h.1, proper_toJsonEntries es h.2⟩
end

/-! ## Reading -/

theorem isFinite_ofInt {n : Int} (hlow : Int64.minValue.toInt ≤ n) (hhigh : n < 2 ^ 64)
    (h : Number.fits64 n = false) : (Float.ofInt n).isFinite = true := by
  have hmin : Int64.minValue.toInt = -2 ^ 63 := rfl
  have hlarge : 2 ^ 63 ≤ n := by
    have hbeyond := mt Number.fits64_iff.mpr (Bool.eq_false_iff.mp h)
    omega
  obtain ⟨m, rfl⟩ := Int.eq_ofNat_of_zero_le (a := n) (by omega)
  exact Double.isFinite_ofNat (by omega) (by omega)

theorem ofJson_eq_str {j : Json} {s : String} (h : ofJson j = str s) : j = .str s := by
  cases j with
  | str t => exact congrArg Json.str (Value.str.inj h)
  | int n =>
    unfold ofJson at h
    split at h <;> cases h
  | obj ms =>
    unfold ofJson at h
    split at h <;> cases h
  | _ => cases h

theorem keys_ofJsonMembers (ms : List (String × Json)) :
    (ofJsonMembers ms).map (·.1) = ms.map (·.1) := by
  induction ms with
  | nil => rfl
  | cons m ms ih => rw [ofJsonMembers, List.map_cons, List.map_cons, ih]

theorem mem_ofJsonMembers {ms : List (String × Json)} {m : String × Json} (h : m ∈ ms) :
    (m.1, ofJson m.2) ∈ ofJsonMembers ms := by
  induction ms with
  | nil => cases h
  | cons m' ms ih =>
    rcases List.mem_cons.mp h with rfl | h
    · exact List.mem_cons_self
    · exact List.mem_cons_of_mem _ (ih h)

/-- A map with one text comes from an object with this text alone. -/
theorem ofList_eq_singleton {ms : List (String × Json)} {k s : String}
    (hnodup : (ms.map (·.1)).Nodup) (h : Entries.ofList (ofJsonMembers ms) = [(k, str s)]) :
    ms = [(k, .str s)] := by
  have hall : ∀ m ∈ ms, m = (k, .str s) := by
    intro m hm
    have hmem := Entries.mem_ofList_of_mem (keys_ofJsonMembers ms ▸ hnodup) (mem_ofJsonMembers hm)
    rw [h, List.mem_singleton, Prod.mk.injEq] at hmem
    exact Prod.ext hmem.1 (ofJson_eq_str hmem.2)
  cases ms with
  | nil => cases h
  | cons m rest =>
    cases rest with
    | nil => rw [hall m List.mem_cons_self]
    | cons m' rest =>
      rw [hall m List.mem_cons_self, hall m' (List.mem_cons_of_mem _ List.mem_cons_self)] at hnodup
      simp at hnodup

mutual
theorem portable_ofJson : (j : Json) → j.Proper → (ofJson j).Portable
  | .null, _ => trivial
  | .bool _, _ => trivial
  | .int n, h => by
    rw [ofJson]
    split
    · trivial
    · rename_i hfits
      exact isFinite_ofInt h.1 h.2 (Bool.eq_false_iff.mpr hfits)
  | .float d, h => h
  | .str _, _ => trivial
  | .arr items, h => portable_ofJsonItems items h
  | .obj ms, h => by
    rw [ofJson]
    split
    · trivial
    · rename_i hparam
      refine ⟨Entries.sorted_ofList _, ?_, ?_⟩
      · intro k s hone
        rw [ofList_eq_singleton h.1 hone] at hparam
        cases hkey : isParamKey k with
        | false => rfl
        | true =>
          rw [paramOf?_eq_some.mpr ⟨k, rfl, hkey⟩] at hparam
          cases hparam
      · rw [portableEntries_iff]
        intro e he
        exact portableEntries_iff.mp (portable_ofJsonMembers ms h.2) e (Entries.mem_ofList he)
theorem portable_ofJsonItems : (js : List Json) → Json.ProperItems js →
    PortableItems (ofJsonItems js)
  | [], _ => trivial
  | j :: js, h => ⟨portable_ofJson j h.1, portable_ofJsonItems js h.2⟩
theorem portable_ofJsonMembers : (ms : List (String × Json)) → Json.ProperMembers ms →
    PortableEntries (ofJsonMembers ms)
  | [], _ => trivial
  | (_, j) :: ms, h => ⟨portable_ofJson j h.1, portable_ofJsonMembers ms h.2⟩
end

end Value
end Polystore
