import Polystore.Model.PropertyType
import Polystore.Proofs.Entries
import Polystore.Proofs.Text.Trimming
import Polystore.Proofs.Value.Paths

/-! # Property paths

A path leads from an entity through references, each of which is the first field of its name and has
an entity of the model as its target, to a scalar field. It may pass an entity any number of times.

A memo knows the entity that a path starts from by its name only. In a model every entity stands
under its own name, so that an entity taken from it can be told by its name, and the memo answers
as if nothing had been asked before. -/

namespace Polystore
set_option autoImplicit false

/-! ## Fields -/

/-- The first field of the name has the type. -/
def Entity.Declares (e : Entity) (name : String) (type : TypeRef) : Prop :=
  ∃ before f after, e.fields = before ++ (name, f) :: after ∧ (∀ x ∈ before, x.1 ≠ name) ∧
    f.type = type

theorem Entity.fieldType?_eq_some {e : Entity} {name : String} {type : TypeRef} :
    e.fieldType? name = some type ↔ e.Declares name type := by
  have hfield : e.fieldType? name = some type ↔ ∃ f, e.field? name = some f ∧ f.type = type := by
    unfold fieldType?
    cases e.field? name <;> simp
  rw [hfield]
  constructor
  · rintro ⟨f, hf, htype⟩
    obtain ⟨before, after, hfields, hbefore⟩ := List.lookup_eq_some_iff.mp hf
    exact ⟨before, f, after, hfields, fun x hx => (bne_iff_ne.mp (hbefore x hx)).symm, htype⟩
  · rintro ⟨before, f, after, hfields, hbefore, htype⟩
    have hne : ∀ x ∈ before, (name != x.1) = true := fun x hx => bne_iff_ne.mpr (hbefore x hx).symm
    exact ⟨f, List.lookup_eq_some_iff.mpr ⟨before, after, hfields, hne⟩, htype⟩

theorem Entity.Declares.exists_field {e : Entity} {name : String} {type : TypeRef}
    (h : e.Declares name type) : ∃ f, (name, f) ∈ e.fields ∧ f.type = type := by
  obtain ⟨before, f, after, hfields, -, htype⟩ := h
  exact ⟨f, hfields ▸ List.mem_append_right before List.mem_cons_self, htype⟩

namespace Model

/-! ## Following references -/

/-- The second entity is reached from the first one along references of these names. -/
inductive Reaches (m : Model) : Entity → List String → Entity → Prop
  | here (e : Entity) : Reaches m e [] e
  | through {e next last : Entity} {name target : String} {names : List String}
    (hfield : e.Declares name (.ref target)) (htarget : m.entity target = .ok next)
    (hrest : Reaches m next names last) : Reaches m e (name :: names) last

section
variable {m : Model} {e last : Entity} {id leaf name : String} {names steps : List String}

theorem entity_eq_ok : m.entity name = .ok e ↔ m.entities.lookup name = some e := by
  unfold entity
  cases m.entities.lookup name <;> simp

theorem scalarAt?_leaf : m.scalarAt? e [leaf] = some id ↔ e.Declares leaf (.scalar id) := by
  rw [scalarAt?, ← Entity.fieldType?_eq_some]
  cases e.fieldType? leaf with
  | none => simp
  | some type => cases type <;> simp

theorem scalarAt?_step (hne : names ≠ []) : m.scalarAt? e (name :: names) = some id ↔
    ∃ target next, e.Declares name (.ref target) ∧ m.entity target = .ok next ∧
      m.scalarAt? next names = some id := by
  rw [scalarAt?.eq_3 m e name names hne]
  simp only [entity_eq_ok, ← Entity.fieldType?_eq_some]
  cases e.fieldType? name with
  | none => simp
  | some type =>
    cases type with
    | ref target => cases hnext : m.entities.lookup target <;> simp [hnext]
    | _ => simp

theorem scalarAt?_of_reaches (h : m.Reaches e steps last) (hleaf : last.Declares leaf (.scalar id)) :
    m.scalarAt? e (steps ++ [leaf]) = some id := by
  induction h with
  | here => exact scalarAt?_leaf.mpr hleaf
  | through hfield htarget hrest ih =>
    exact (scalarAt?_step (List.concat_ne_nil leaf _)).mpr ⟨_, _, hfield, htarget, ih hleaf⟩

theorem exists_reaches_of_scalarAt? (h : m.scalarAt? e names = some id) :
    ∃ steps leaf last, names = steps ++ [leaf] ∧ m.Reaches e steps last ∧
      last.Declares leaf (.scalar id) := by
  induction names generalizing e with
  | nil => cases h
  | cons name names ih =>
    by_cases hne : names = []
    · subst hne
      exact ⟨[], name, e, rfl, .here e, scalarAt?_leaf.mp h⟩
    · obtain ⟨target, next, hfield, htarget, hrest⟩ := (scalarAt?_step hne).mp h
      obtain ⟨steps, leaf, last, rfl, hreaches, hleaf⟩ := ih hrest
      exact ⟨name :: steps, leaf, last, rfl, .through hfield htarget hreaches, hleaf⟩

/-- The scalar type of a path is the one of the last field on it. -/
theorem scalarTypeId?_eq_some {path : String} : m.scalarTypeId? e path = some id ↔
    (∃ c ∈ path.toList, Text.isBlank c = false) ∧
      ∃ steps leaf last, Joins path (steps ++ [leaf]) ∧ m.Reaches e steps last ∧
        last.Declares leaf (.scalar id) := by
  rw [← Text.isBlankText_eq_false]
  have hsegments (steps : List String) (leaf : String) :
      Joins path (steps ++ [leaf]) ↔ Text.split '.' path = steps ++ [leaf] :=
    (segments_eq_iff (List.concat_ne_nil leaf steps)).symm
  unfold scalarTypeId?
  cases Text.isBlankText path with
  | true => simp
  | false =>
    simp only [hsegments, if_false, true_and, Bool.false_eq_true]
    constructor
    · exact exists_reaches_of_scalarAt?
    · rintro ⟨steps, leaf, last, hsplit, hreaches, hleaf⟩
      rw [hsplit]
      exact scalarAt?_of_reaches hreaches hleaf

end

/-! ## Entities taken from a model -/

/-- The ways to take an entity from a model: by its name, by the id of a view, from all of them. -/
inductive Offers (m : Model) (e : Entity) : Prop
  | named {name : String} (h : m.entity name = .ok e)
  | viewed {id : String} (h : m.entityForView id = .ok e)
  | listed (h : e ∈ m.allEntities)

/-- Every entity stands under its own name and no name is repeated. -/
structure Keyed (m : Model) : Prop where
  sorted : Entries.Sorted m.entities
  named : ∀ x ∈ m.entities, x.1 = x.2.name

section
variable {m m' : Model} {e : Entity} {es : List Entity}

theorem mem_of_entity {name : String} (h : m.entity name = .ok e) : e ∈ m.allEntities :=
  List.mem_map_of_mem (Entries.mem_of_lookup (entity_eq_ok.mp h))

theorem offers_iff : m.Offers e ↔ e ∈ m.allEntities := by
  refine ⟨fun h => ?_, .listed⟩
  cases h with
  | named h => exact mem_of_entity h
  | @viewed id h =>
    unfold entityForView at h
    split at h
    · exact mem_of_entity h
    · cases h
  | listed h => exact h

theorem keyed_empty : empty.Keyed := ⟨Entries.sorted_nil, nofun⟩

theorem Keyed.add (h : m.Keyed) (e : Entity) : (m.add e).Keyed where
  sorted := Entries.sorted_insert h.sorted
  named x hx := by
    rcases Entries.mem_insert hx with rfl | hx
    · rfl
    · exact h.named x hx

theorem Keyed.addAll (h : m.Keyed) (hadd : m.addAll es = .ok m') : m'.Keyed := by
  induction es generalizing m with
  | nil =>
    cases hadd
    exact h
  | cons e es ih =>
    unfold Model.addAll at hadd
    split at hadd
    · cases hadd
    · exact ih (h.add e) hadd

theorem keyed_ofEntities (h : ofEntities es = .ok m) : m.Keyed := keyed_empty.addAll h

/-- An entity that was taken from the model is found by its name. -/
theorem Keyed.entity_name (h : m.Keyed) (he : m.Offers e) : m.entity e.name = .ok e := by
  obtain ⟨x, hx, rfl⟩ := List.mem_map.mp (offers_iff.mp he)
  rw [entity_eq_ok, ← h.named x hx]
  exact Entries.lookup_of_mem (Entries.nodup_keys h.sorted) hx

end
end Model

namespace PropertyMemo

/-! ## Questions to a memo -/

inductive Question where
  | scalarTypeId (root : Entity) (path : String)
  | bindTypeId (root : Entity) (path : String)

namespace Question

def root : Question → Entity
  | scalarTypeId root _ => root
  | bindTypeId root _ => root

/-- The answer without a memo. -/
def answer (m : Model) : Question → Option String
  | scalarTypeId root path => m.scalarTypeId? root path
  | bindTypeId root path => some (m.bindTypeId root path)

/-- The answer of a memo, and the memo behind it. -/
def ask (p : PropertyMemo) : Question → Option String × PropertyMemo
  | scalarTypeId root path => p.scalarTypeId? root path
  | bindTypeId root path => (p.bindTypeId root path).map some id

end Question

/-- The answers to questions that are asked one after the other. -/
def askAll (p : PropertyMemo) : List Question → List (Option String)
  | [] => []
  | q :: qs => (q.ask p).1 :: askAll (q.ask p).2 qs

/-- What is kept under a name is right for the entity that is found by the name. -/
structure Keeps (m : Model) (p : PropertyMemo) : Prop where
  model : p.model = m
  answers : ∀ {name path : String} {r : Option String} {e : Entity},
    p.answers.lookup (name, path) = some r → m.entity name = .ok e → r = m.scalarTypeId? e path

theorem keeps_ofModel (m : Model) : Keeps m (ofModel m) := ⟨rfl, fun h => nomatch h⟩

section
variable {m : Model} {p : PropertyMemo} {root : Entity}

/-- The answer to a question for the scalar type is the one without the memo, and is kept under the
name of an entity that is found by it. -/
theorem Keeps.scalarTypeId? (hp : Keeps m p) (hroot : m.entity root.name = .ok root)
    (path : String) : (p.scalarTypeId? root path).1 = m.scalarTypeId? root path ∧
      Keeps m (p.scalarTypeId? root path).2 := by
  unfold PropertyMemo.scalarTypeId?
  cases hkept : p.answers.lookup (root.name, path) with
  | some r => exact ⟨hp.answers hkept hroot, hp⟩
  | none =>
    refine ⟨congrArg (·.scalarTypeId? root path) hp.model, hp.model, ?_⟩
    intro name other r e hr he
    rw [List.lookup_cons] at hr
    by_cases hkey : (name, other) = (root.name, path)
    · obtain ⟨rfl, rfl⟩ := Prod.mk.inj hkey
      cases hroot.symm.trans he
      rw [beq_self_eq_true] at hr
      rw [← Option.some.inj hr, hp.model]
    · rw [beq_eq_false_iff_ne.mpr hkey] at hr
      exact hp.answers hr he

/-- The type that values are bound with is made of the scalar type and the fields of the entity. -/
theorem bindTypeId_eq (p : PropertyMemo) (root : Entity) (path : String) :
    p.bindTypeId root path =
      ((p.scalarTypeId? root path).1.getD ((root.field? path).elim "json" (·.type.typeId)),
        (p.scalarTypeId? root path).2) := by
  unfold bindTypeId
  obtain ⟨r, p'⟩ := p.scalarTypeId? root path
  cases r with
  | some id => rfl
  | none => cases root.field? path <;> rfl

theorem Keeps.bindTypeId (hp : Keeps m p) (hroot : m.entity root.name = .ok root)
    (path : String) : (p.bindTypeId root path).1 = m.bindTypeId root path ∧
      Keeps m (p.bindTypeId root path).2 := by
  obtain ⟨hanswer, hkeeps⟩ := hp.scalarTypeId? hroot path
  rw [bindTypeId_eq, hanswer]
  refine ⟨?_, hkeeps⟩
  unfold Model.bindTypeId
  cases m.scalarTypeId? root path with
  | some id => rfl
  | none => cases root.field? path <;> rfl

theorem Keeps.ask (hp : Keeps m p) {q : Question} (hroot : m.entity q.root.name = .ok q.root) :
    (q.ask p).1 = q.answer m ∧ Keeps m (q.ask p).2 := by
  cases q with
  | scalarTypeId root path => exact hp.scalarTypeId? hroot path
  | bindTypeId root path =>
    obtain ⟨hanswer, hkeeps⟩ := hp.bindTypeId hroot path
    exact ⟨congrArg some hanswer, hkeeps⟩

/-- Where each root is found by its name, the answers do not depend on each other. -/
theorem Keeps.askAll (hp : Keeps m p) {qs : List Question}
    (hroots : ∀ q ∈ qs, m.entity q.root.name = .ok q.root) :
    p.askAll qs = qs.map (·.answer m) := by
  induction qs generalizing p with
  | nil => rfl
  | cons q qs ih =>
    obtain ⟨hroot, hrest⟩ := List.forall_mem_cons.mp hroots
    obtain ⟨hanswer, hkeeps⟩ := hp.ask hroot
    rw [PropertyMemo.askAll, hanswer, ih hkeeps hrest, List.map_cons]

end

theorem lookup_scalarTypeId? (p : PropertyMemo) (root : Entity) (path : String) :
    (p.scalarTypeId? root path).2.answers.lookup (root.name, path) =
      some (p.scalarTypeId? root path).1 := by
  unfold scalarTypeId?
  cases hkept : p.answers.lookup (root.name, path) with
  | some r => exact hkept
  | none => exact List.lookup_cons_self

/-- An entity of the same name is taken for the one that was asked about before. -/
theorem scalarTypeId?_namesake (p : PropertyMemo) {root namesake : Entity}
    (hname : namesake.name = root.name) (path : String) :
    ((p.scalarTypeId? root path).2.scalarTypeId? namesake path).1 =
      (p.scalarTypeId? root path).1 := by
  rw [scalarTypeId?.eq_def _ namesake, hname, lookup_scalarTypeId?]

/-- Asked any questions about entities taken from the model, a memo gives the answers that it would
give without what it has kept. A path has a scalar type exactly if it is not blank, all its segments
but the last one are references to entities of the model, and the last one is a field of this type;
the references may lead in a circle or to nothing. -/
theorem asked_paths_resolved {es : List Entity} {m : Model} (h : Model.ofEntities es = .ok m) :
    (∀ qs : List Question, (∀ q ∈ qs, m.Offers q.root) →
      (ofModel m).askAll qs = qs.map (·.answer m)) ∧
    ∀ root path id, m.scalarTypeId? root path = some id ↔
      (∃ c ∈ path.toList, Text.isBlank c = false) ∧
        ∃ steps leaf last, Joins path (steps ++ [leaf]) ∧ m.Reaches root steps last ∧
          last.Declares leaf (.scalar id) := by
  refine ⟨fun qs hroots => ?_, fun root path id => Model.scalarTypeId?_eq_some⟩
  have hm := Model.keyed_ofEntities h
  exact (keeps_ofModel m).askAll fun q hq => hm.entity_name (hroots q hq)

def employee : Entity :=
  ⟨"Employee", .entity, some "employees",
    [("name", .ofType (.scalar "string")), ("boss", .ofType (.ref "Employee")),
      ("office", .ofType (.ref "Office")), ("office", .ofType (.scalar "long")),
      ("agent", .ofType (.ref "Agent"))], []⟩

def office : Entity :=
  ⟨"Office", .value, none,
    [("city", .ofType (.scalar "string")), ("head", .ofType (.ref "Employee"))], []⟩

/-- Employees and offices refer to each other, and to agents, which there are none of. -/
theorem officePaths_resolved :
    let m : Model := ⟨[("Employee", employee), ("Office", office)], []⟩
    let qs : List Question := [.scalarTypeId employee "boss.boss.name",
      .scalarTypeId employee "agent.name", .bindTypeId office "head.office",
      .scalarTypeId employee " ", .scalarTypeId office "head.office",
      .scalarTypeId employee "office", .scalarTypeId employee "boss.boss.name"]
    Model.ofEntities [office, employee] = .ok m ∧ (∀ q ∈ qs, m.Offers q.root) ∧
      (ofModel m).askAll qs =
        [some "string", none, some "json", none, none, none, some "string"] ∧
      m.scalarTypeId? office "head.boss.office.city" = some "string" := by
  intro m qs
  have hm : Model.ofEntities [office, employee] = .ok m := rfl
  obtain ⟨hasked, hresolved⟩ := asked_paths_resolved hm
  have hemployee : m.entity "Employee" = .ok employee := rfl
  have hoffice : m.entity "Office" = .ok office := rfl
  have hroots : ∀ q ∈ qs, m.Offers q.root := by
    intro q hq
    have hroot : q.root = employee ∨ q.root = office := by
      revert q
      simp [qs, Question.root]
    obtain hroot | hroot := hroot
    · exact hroot ▸ .named hemployee
    · exact hroot ▸ .named hoffice
  refine ⟨hm, hroots, (hasked qs hroots).trans (by decide), ?_⟩
  -- the path comes back to the office that it starts from
  have hcircle : m.Reaches office ["head", "boss", "office"] office :=
    .through (Entity.fieldType?_eq_some.mp rfl) hemployee <|
      .through (Entity.fieldType?_eq_some.mp rfl) hemployee <|
        .through (Entity.fieldType?_eq_some.mp rfl) hoffice (.here office)
  have hjoins : Joins "head.boss.office.city" ["head", "boss", "office", "city"] :=
    ⟨by decide, by decide⟩
  exact (hresolved _ _ _).mpr ⟨⟨'h', by decide, by decide⟩, _, "city", office, hjoins, hcircle,
    Entity.fieldType?_eq_some.mp rfl⟩

end PropertyMemo
end Polystore
