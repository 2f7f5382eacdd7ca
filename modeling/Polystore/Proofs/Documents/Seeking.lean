import Polystore.Documents.Compile
import Polystore.Proofs.Documents.Holding
import Polystore.Proofs.Outcome
import Polystore.Proofs.Paging

/-! # Seek pages of document stores

The predicate of a page that is sought with the sort values of a row holds of the matching documents
strictly behind that row, in the order of the sort keys of the same statement, be they keys of the
statement or of a stage. All further pages compile where the first one does. -/

namespace Polystore.Documents
set_option autoImplicit false

open Paging

/-! ## What a store makes of a read -/

section
variable {R : Type} {K : String → Type} [∀ c, LinearOrder (K c)] (stored : R → (c : String) → K c)
  (test : R → String → Value → Bool) (shown : R → String → Value)

/-- What stages ask of the documents that come to them: filters, a sorting and a limit. -/
def piped : List Stage → Option (Wanted R)
  | .filter d :: stages =>
    (piped stages).map fun w => { w with keeps := fun x => holds (test x) d && w.keeps x }
  | [.sort keys, .limit n] => some ⟨fun _ => true, keys, n.toNat⟩
  | _ => none

/-- What a statement asks of the documents of its base: of a collection, or what the stages of a
native pipeline make of it. -/
inductive Asks : Base → Statement → Wanted R → Prop
  | find {d : Document} {st : Statement} {n : UInt64} (hcommand : st.command = .find)
    (hskip : st.skip = none) (hlimit : st.limit = some n) :
    Asks (.filter d) st ⟨fun x => holds (test x) st.filter, st.sort, n.toNat⟩
  | aggregate {stages rest : List Stage} {st : Statement} {w : Wanted R}
    (hcommand : st.command = .aggregate) (hpipeline : st.pipeline = stages ++ rest)
    (hrest : piped test rest = some w) : Asks (.pipeline stages) st w

/-- A document matches a filter, behind the filter of a base that has one. -/
def meets (b : Base) (p : Document) (x : R) : Bool :=
  (match b with
    | .filter d => holds (test x) d
    | .pipeline _ => true) && holds (test x) p

/-- Tested against the stored form of a value that another document shows, a path compares as the
two documents store it. -/
structure Compares (path : String) (x y : R) (w : Value) : Prop where
  eq : test x path w = true ↔ stored x path = stored y path
  gt : test x path (.map [("$gt", w)]) = true ↔ stored y path < stored x path
  lt : test x path (.map [("$lt", w)]) = true ↔ stored x path < stored y path

/-- Pages of some documents can be sought by the sort fields: these are scalars without null values
at paths of their own, the store compares them, and no two documents have the same values in all of
them. -/
structure Seekable (s : Scope) (sort : List SortField) (rows : List R) : Prop where
  shown_ne_null : ∀ y ∈ rows, ∀ f ∈ sort, (shown y f.field).isNull = false
  path_tested : ∀ f ∈ sort, pathOf s.view f.field ∉ connectives
  compared : ∀ f ∈ sort, ∃ typeId, s.scalarType .sort f.field = .ok typeId ∧ ∀ y ∈ rows,
    ∃ w, operand (pathOf s.view f.field) typeId (shown y f.field) = .ok w ∧
      ∀ x ∈ rows, Compares stored test (pathOf s.view f.field) x y w
  distinct : Distinct stored (sortKeys s.view sort) rows

end

/-! ## Pages behind a document -/

section
variable {R : Type} {K : String → Type}

end

section
variable {R : Type} {K : String → Type} [∀ c, LinearOrder (K c)] {stored : R → (c : String) → K c}
  {test : R → String → Value → Bool} {shown : R → String → Value} {s : Scope}
  {sort earlier fs : List SortField} {rows : List R} {y : R}

theorem Seekable.seekOperand (h : Seekable stored test shown s sort rows) (hy : y ∈ rows)
    {f : SortField} (hf : f ∈ sort) :
    ∃ w, seekOperand s (sortValues shown sort (some y)) f.field = .ok (pathOf s.view f.field, w) ∧
      ∀ x ∈ rows, Compares stored test (pathOf s.view f.field) x y w := by
  obtain ⟨typeId, htype, hcompares⟩ := h.compared f hf
  obtain ⟨w, hw, hcompares⟩ := hcompares y hy
  refine ⟨w, ?_, hcompares⟩
  simp only [Documents.seekOperand, lookup_sortValues shown y hf, h.shown_ne_null y hy f hf,
    Bool.false_eq_true, if_false]
  exact bind_eq_ok.mpr ⟨typeId, htype, map_eq_ok.mpr ⟨w, hw, rfl⟩⟩

variable {filter : Option Filter} {limit : UInt64} {after : Option R} {params : Entries Value}

/-- The statement of a read of the documents of a base under a restriction. -/
def readOf (v : View) (sort : List SortField) (page : Page) (collection : String)
    (restriction : Document) : Base → Statement
  | .filter d =>
    { Statement.on .find collection with
      filter := both d restriction, sort := sortKeys v sort,
      skip := if skipped page == 0 then none else some (skipped page), limit := some page.limit }
  | .pipeline stages =>
    { Statement.on .aggregate collection with
      pipeline := stages ++ filterStage restriction ++ sortStage (sortKeys v sort) ++
        skipStage (skipped page) ++ [.limit page.limit] }

theorem select_eq_ok {page : Page} {st : Statement} :
    select s filter sort page params = .ok st ↔
      ∃ collection p later b, lift .planning s.source = .ok collection ∧
        predicate? s filter = .ok p ∧ seek s sort page = .ok later ∧ base s.view params = .ok b ∧
        st = readOf s.view sort page collection (both (p.getD []) (later.getD [])) b := by
  constructor
  · intro h
    obtain ⟨collection, hsource, h⟩ := bind_eq_ok.mp h
    obtain ⟨p, hp, h⟩ := bind_eq_ok.mp h
    obtain ⟨later, hlater, h⟩ := bind_eq_ok.mp h
    obtain ⟨b, hb, h⟩ := bind_eq_ok.mp h
    refine ⟨collection, p, later, b, hsource, hp, hlater, hb, ?_⟩
    cases b with
    | filter d => exact (Except.ok.inj h).symm
    | pipeline stages => exact (Except.ok.inj h).symm
  · rintro ⟨collection, p, later, b, hsource, hp, hlater, hb, rfl⟩
    refine bind_eq_ok.mpr ⟨collection, hsource, bind_eq_ok.mpr ⟨p, hp, bind_eq_ok.mpr
      ⟨later, hlater, bind_eq_ok.mpr ⟨b, hb, ?_⟩⟩⟩⟩
    cases b <;> rfl

end
end Polystore.Documents
