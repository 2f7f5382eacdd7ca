import Polystore.Engine.Operations
import Polystore.Proofs.Write.Boundaries
import Polystore.Sql.Execution

/-! # Generated keys

The engine has the store make an automatic key that reads as null. The planner leaves the column of
a null out only if the payload does not hold the null. So a key that a payload sets to null is
written as null, and asked for as well. -/

namespace Polystore
set_option autoImplicit false

namespace Planner

/-- A field of this name has a column of its own. -/
def IsPlain (s : Scope) (name : String) : Prop :=
  ∃ f, (name, f) ∈ s.entity.fields ∧ Entity.isRef f.type = false

/-- Something else of the payload is written to the column of a field. -/
def FilledByOthers (p : Planner) (s : Scope) (payload : Payload) (name : String) : Prop :=
  ∃ x ∈ s.entity.fields, ¬(x.1 = name ∧ Entity.isRef x.2.type = false) ∧
    Fills p s payload x.1 x.2 (p.column s name)

section
variable {p : Planner} {s : Scope} {payload : Payload} {name : String} {returning : Bool}
  {w : Insert}

/-! ## What an insert writes and asks for -/

theorem insert_returning (h : p.insert s payload returning = .ok w) :
    w.returning = if returning then p.keyColumns s else [] := by
  obtain ⟨table, -, htable⟩ := bind_eq_ok.mp h
  obtain ⟨columns, -, hw⟩ := bind_eq_ok.mp htable
  cases hw
  rfl

/-- The column of a field is written for its own value or null, or for something else. -/
theorem column_written (h : p.insert s payload returning = .ok w) (name : String) :
    p.column s name ∈ w.columnNames ↔
      IsPlain s name ∧
          ((payload.get name).isNull = false ∨ payload.isExplicitNull name = true) ∨
        FilledByOthers p s payload name := by
  rw [insert_columns h]
  constructor
  · rintro ⟨x, hx, hfills⟩
    by_cases hown : x.1 = name ∧ Entity.isRef x.2.type = false
    · obtain ⟨rfl, hplain⟩ := hown
      cases hfills with
      | own _ given => exact .inl ⟨⟨x.2, hx, hplain⟩, given⟩
      | nested reference =>
        rw [reference] at hplain
        cases hplain
    · exact .inr ⟨x, hx, hown, hfills⟩
  · rintro (⟨⟨f, hf, hplain⟩, given⟩ | ⟨x, hx, -, hfills⟩)
    · exact ⟨(name, f), hf, .own hplain given⟩
    · exact ⟨x, hx, hfills⟩

theorem columnsOfAll_mem {fields : List (String × Field)} {cs : List ColumnBind}
    (h : p.columnsOfAll s payload fields = .ok cs) {f : Field} (hf : (name, f) ∈ fields)
    (hplain : Entity.isRef f.type = false) {c : ColumnBind}
    (hc : c ∈ p.fieldColumn s payload name f) : c ∈ cs := by
  induction fields generalizing cs with
  | nil => cases hf
  | cons x fields ih =>
    obtain ⟨first, hfirst, hnext⟩ := bind_eq_ok.mp h
    obtain ⟨rest, hrest, hcs⟩ := bind_eq_ok.mp hnext
    cases hcs
    cases hf with
    | head =>
      cases (columnsOf_plain hplain).symm.trans hfirst
      exact List.mem_append_left _ hc
    | tail _ hmem => exact List.mem_append_right _ (ih hrest hmem)

theorem insert_bind (h : p.insert s payload returning = .ok w) {f : Field}
    (hf : (name, f) ∈ s.entity.fields) (hplain : Entity.isRef f.type = false)
    (hgiven : (payload.get name).isNull = false) :
    ⟨p.column s name, bindFor (some f) (payload.get name)⟩ ∈ w.columns := by
  obtain ⟨table, -, htable⟩ := bind_eq_ok.mp h
  obtain ⟨columns, hcolumns, hw⟩ := bind_eq_ok.mp htable
  cases hw
  obtain ⟨-, -, hcs⟩ := bind_eq_ok.mp hcolumns
  refine columnsOfAll_mem hcs hf hplain ?_
  rw [fieldColumn, hgiven]
  exact List.mem_singleton_self _

end
end Planner

open Planner (IsPlain FilledByOthers)

section
variable {I : Interface} {b : Backend I}

/-- The key field that the store fills: an automatic single key that reads as null. -/
def LeftOpen (entity : Entity) (p : Payload) (key : String) : Prop :=
  entity.singleKey? = some key ∧ (entity.field? key).any (·.autoGenerated) = true ∧
    (p.get key).isNull = true

theorem Engine.openKey?_automatic {e : Engine b} {entity : Entity} {p : Payload} {key : String}
    {k : Option String} (hkey : entity.singleKey? = some key)
    (hauto : (entity.field? key).any (·.autoGenerated) = true)
    (h : e.openKey? entity p = .ok k) : k = if (p.get key).isNull then some key else none := by
  unfold Engine.openKey? at h
  rw [hkey] at h
  dsimp only at h
  rw [if_pos hauto] at h
  obtain ⟨-, -, h⟩ := bind_eq_ok.mp h
  split at h
  · rename_i hnull
    obtain ⟨-, -, h⟩ := bind_eq_ok.mp h
    rw [if_pos hnull]
    exact (Except.ok.inj h).symm
  · rename_i hnull
    rw [if_neg hnull]
    exact (Except.ok.inj h).symm

theorem Engine.openKey?_eq {e : Engine b} {entity : Entity} {p : Payload} {k : Option String}
    (h : e.openKey? entity p = .ok k) (key : String) : k = some key ↔ LeftOpen entity p key := by
  constructor
  · rintro rfl
    unfold Engine.openKey? at h
    split at h
    · cases h
    · rename_i key' hkey
      split at h
      · rename_i hauto
        obtain ⟨-, -, h⟩ := bind_eq_ok.mp h
        split at h
        · rename_i hnull
          obtain ⟨-, -, h⟩ := bind_eq_ok.mp h
          cases h
          exact ⟨hkey, hauto, hnull⟩
        · cases h
      · cases h
  · rintro ⟨hkey, hauto, hnull⟩
    rw [Engine.openKey?_automatic hkey hauto h, if_pos hnull]

/-- A key that reads as null is asked for, and its column left out exactly if the payload does not
hold the null and writes nothing else there. A key with a value is not asked for, and written if it
has a column of its own. -/
theorem generated_key_columns (e : Engine b) (s : Scope) (p : Payload) (key : String)
    {k : Option String} {w : Insert} (hkey : s.entity.singleKey? = some key)
    (hauto : (s.entity.field? key).any (·.autoGenerated) = true)
    (hopen : e.openKey? s.entity p = .ok k) (hplan : e.planner.insert s p k.isSome = .ok w) :
    ((p.get key).isNull = true →
      k = some key ∧ w.returning = [e.planner.column s key] ∧
      (e.planner.column s key ∉ w.columnNames ↔
        (IsPlain s key → p.isExplicitNull key = false) ∧ ¬FilledByOthers e.planner s p key)) ∧
    ((p.get key).isNull = false →
      k = none ∧ w.returning = [] ∧
      (e.planner.column s key ∈ w.columnNames ↔
        IsPlain s key ∨ FilledByOthers e.planner s p key) ∧
      ∀ f, (key, f) ∈ s.entity.fields → Entity.isRef f.type = false →
        ⟨e.planner.column s key, Planner.bindFor (some f) (p.get key)⟩ ∈ w.columns) := by
  have hk := Engine.openKey?_automatic hkey hauto hopen
  have hreturning := Planner.insert_returning hplan
  have hwritten := Planner.column_written hplan key
  constructor
  · intro hnull
    rw [if_pos hnull] at hk
    subst hk
    refine ⟨rfl, hreturning.trans (Planner.keyColumns_single hkey), ?_⟩
    rw [hwritten, hnull]
    simp only [Bool.true_eq_false, false_or, not_or, not_and, Bool.not_eq_true]
  · intro hgiven
    rw [if_neg (by rw [hgiven]; exact Bool.false_ne_true)] at hk
    subst hk
    refine ⟨rfl, hreturning, ?_, fun f hf hplain => Planner.insert_bind hplan hf hplain hgiven⟩
    rw [hwritten, hgiven]
    simp only [true_or, and_true]

end

/-! ## A key that is set to null -/

def pen : Entity :=
  ⟨"Pen", .entity, some "pens",
    [("id", ⟨.scalar "long", true, true, []⟩), ("name", .ofType (.scalar "string"))],
    [("core", ⟨"core", [], none⟩)]⟩

def pens : Engine (Sql.backend .postgres) where
  id := 0
  handle := .ofId "main"
  model := ⟨[("Pen", pen)], [("core", "Pen")]⟩
  planner := ⟨.explicit, [], [("Pen", Capability.all)]⟩
  validation _ _ _ := .ok ()
  propagation := .required

def penScope : Scope := ⟨pens.model, pen, ⟨"core", [], none⟩⟩

def unnumbered : Payload := .document [("id", .null), ("name", .str "pen")]

/-- The null is written to the column of the key, which is asked for. -/
theorem unnumbered_written :
    ∃ w, pens.openKey? pen unnumbered = .ok (some "id") ∧
      pens.planner.insert penScope unnumbered true = .ok w ∧
      "id" ∈ w.columnNames ∧ w.returning = ["id"] := by
  obtain ⟨w, hplan⟩ : ∃ w, pens.planner.insert penScope unnumbered true = .ok w := ⟨_, rfl⟩
  have hopen : pens.openKey? pen unnumbered = .ok (some "id") := by rfl
  obtain ⟨-, hreturning, hleft⟩ := (generated_key_columns pens penScope unnumbered "id" rfl
    (by decide) hopen hplan).1 rfl
  refine ⟨w, hopen, hplan, Decidable.not_not.mp fun hmem => ?_, hreturning⟩
  have hopened := (hleft.mp hmem).1 ⟨_, .head _, rfl⟩
  cases hopened

end Polystore
