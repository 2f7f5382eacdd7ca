import Mathlib.Tactic
import Polystore.Model.Basic
import Polystore.Proofs.Entries

/-! # Views of a model

An entity takes the place of an earlier one of its name, and the owner of a view id is the name of
the last entity that has it. A view is found by its id unless it is superseded: behind the last
entity that has it there is one of the same name, so that the owner is left without the view. -/

namespace Polystore.Model
set_option autoImplicit false

def isNamed (name : String) (e : Entity) : Bool := e.name == name

theorem isNamed_self (e : Entity) : isNamed e.name e = true := beq_self_eq_true e.name

def hasView (id : String) (e : Entity) : Bool := Entries.hasKey id e.views

/-- Behind the last entity with the view there is one of its name. -/
def Superseded (es : List Entity) (id : String) : Prop :=
  ∃ before owner after, es = before ++ owner :: after ∧ hasView id owner = true ∧
    (∀ e ∈ after, hasView id e = false) ∧ ∃ e ∈ after, e.name = owner.name

/-! ## The last entities -/

/-- The last of the entities for which the test holds. -/
def latest? (test : Entity → Bool) (es : List Entity) : Option Entity := es.reverse.find? test

section
variable {test : Entity → Bool} {es es' : List Entity} {e : Entity}

theorem latest?_append : latest? test (es ++ es') = (latest? test es').or (latest? test es) := by
  rw [latest?, List.reverse_append, List.find?_append]
  rfl

theorem latest?_singleton : latest? test [e] = if test e then some e else none := by
  cases h : test e <;> simp [latest?, h]

theorem latest?_eq_none : latest? test es = none ↔ ∀ e ∈ es, test e = false := by
  simp [latest?]

theorem mem_of_latest? (h : latest? test es = some e) : e ∈ es ∧ test e = true :=
  ⟨List.mem_reverse.mp (List.mem_of_find?_eq_some h), List.find?_some h⟩

theorem exists_latest? (he : e ∈ es) (h : test e = true) : ∃ x, latest? test es = some x := by
  rw [← Option.ne_none_iff_exists', ne_eq, latest?_eq_none]
  intro hnone
  rw [hnone e he] at h
  cases h

/-- Where the last entity stands there is no other behind it. -/
theorem latest?_split (h : latest? test es = some e) :
    ∃ before after, es = before ++ e :: after ∧ ∀ x ∈ after, test x = false := by
  obtain ⟨-, after, before, hsplit, hafter⟩ := List.find?_eq_some_iff_append.mp h
  refine ⟨before.reverse, after.reverse, ?_, ?_⟩
  · simpa using congrArg List.reverse hsplit
  · intro x hx
    simpa using hafter x (List.mem_reverse.mp hx)

theorem latest?_of_split {before after : List Entity} (he : test e = true)
    (hafter : ∀ x ∈ after, test x = false) : latest? test (before ++ e :: after) = some e := by
  have hnone : latest? test after = none := latest?_eq_none.mpr hafter
  rw [← List.singleton_append, latest?_append, latest?_append, hnone, latest?_singleton, if_pos he]
  rfl

end

/-- The last entity of the owner's name has the view unless the view is superseded. -/
theorem hasView_iff {es : List Entity} {id : String} {owner e : Entity}
    (howner : latest? (hasView id) es = some owner)
    (he : latest? (isNamed owner.name) es = some e) : hasView id e = true ↔ ¬Superseded es id := by
  constructor
  · rintro hview ⟨before, owner', after, rfl, hhas, hafter, x, hx, hname⟩
    -- the last entity of the name stands behind the owner, where no entity has the view
    obtain rfl : owner' = owner := by
      rw [latest?_of_split hhas hafter] at howner
      exact Option.some.inj howner
    have hlater : e ∈ after := by
      have hnamed : isNamed owner'.name x = true := beq_iff_eq.mpr hname
      obtain ⟨y, hy⟩ := exists_latest? hx hnamed
      rw [← List.singleton_append, latest?_append, latest?_append, hy] at he
      cases he
      exact (mem_of_latest? hy).1
    rw [hafter e hlater] at hview
    cases hview
  · intro hkept
    obtain ⟨before, after, rfl, hafter⟩ := latest?_split howner
    have hhas : hasView id owner = true := (mem_of_latest? howner).2
    have hunnamed : ∀ x ∈ after, isNamed owner.name x = false := by
      intro x hx
      by_contra hnamed
      have hname : x.name = owner.name := by simpa [isNamed] using hnamed
      exact hkept ⟨before, owner, after, rfl, hhas, hafter, x, hx, hname⟩
    rw [latest?_of_split (isNamed_self owner) hunnamed] at he
    cases he
    exact hhas

/-- Entities of different names supersede no views. -/
theorem not_superseded_of_nodup {es : List Entity} (h : (es.map (·.name)).Nodup) (id : String) :
    ¬Superseded es id := by
  rintro ⟨before, owner, after, rfl, -, -, e, he, hname⟩
  rw [List.map_append, List.map_cons, List.nodup_append, List.nodup_cons] at h
  exact h.2.1.1 (List.mem_map.mpr ⟨e, he, hname⟩)

/-! ## What a model holds -/

/-- The model of the entities: the last one of each name, and for each view id the name of the last
one that has it. -/
structure Holds (m : Model) (es : List Entity) : Prop where
  entities : ∀ name, m.entities.lookup name = latest? (isNamed name) es
  owners : ∀ id, m.owners.lookup id = (latest? (hasView id) es).map (·.name)
  added : ∀ e ∈ m.allEntities, e ∈ es

section
variable {m m' : Model} {es es' : List Entity}

theorem lookup_owned (e : Entity) (owners : Entries String) (id : String) :
    (e.views.foldl (fun owners v => Entries.insert v.1 e.name owners) owners).lookup id =
      if hasView id e then some e.name else owners.lookup id := by
  unfold hasView
  generalize e.views = views
  induction views generalizing owners with
  | nil => rfl
  | cons v views ih =>
    rw [List.foldl_cons, ih, Entries.hasKey, Entries.hasKey, List.lookup_cons]
    by_cases hid : id = v.1
    · subst hid
      rw [Entries.lookup_insert_self, ite_self, beq_self_eq_true]
      rfl
    · rw [Entries.lookup_insert_of_ne hid, beq_eq_false_iff_ne.mpr hid]

/-- What one more entity changes. -/
theorem Holds.add (h : m.Holds es) (e : Entity) : (m.add e).Holds (es ++ [e]) where
  entities name := by
    show (Entries.insert e.name e m.entities).lookup name = _
    rw [latest?_append, latest?_singleton, ← h.entities, isNamed]
    by_cases hname : name = e.name
    · subst hname
      simp [Entries.lookup_insert_self]
    · simp [Entries.lookup_insert_of_ne hname, Ne.symm hname]
  owners id := by
    rw [latest?_append, latest?_singleton]
    refine (lookup_owned e m.owners id).trans ?_
    rw [h.owners]
    cases hasView id e <;> rfl
  added x hx := by
    obtain ⟨entry, hentry, rfl⟩ := List.mem_map.mp hx
    rcases Entries.mem_insert hentry with rfl | hentry
    · exact List.mem_append_right es List.mem_cons_self
    · exact List.mem_append_left [e] (h.added entry.2 (List.mem_map_of_mem hentry))

theorem Holds.addAll (h : m.Holds es) (hadd : m.addAll es' = .ok m') : m'.Holds (es ++ es') := by
  induction es' generalizing m es with
  | nil =>
    cases hadd
    rwa [List.append_nil]
  | cons e es' ih =>
    unfold Model.addAll at hadd
    split at hadd
    · cases hadd
    · have hrest := ih (h.add e) hadd
      rwa [List.append_assoc] at hrest

theorem holds_empty : empty.Holds [] :=
  ⟨fun _ => rfl, fun _ => rfl, fun _ he => absurd he List.not_mem_nil⟩

theorem holds_ofEntities (h : ofEntities es = .ok m) : m.Holds es := holds_empty.addAll h

/-! ## Finding views -/

theorem view_eq_ok {id : String} {v : View} :
    m.view id = .ok v ↔ ∃ e, m.entityForView id = .ok e ∧ e.views.lookup id = some v := by
  unfold view
  cases m.entityForView id with
  | error err => simp
  | ok e => cases hv : e.views.lookup id <;> simp [hv]

section
variable {id : String} {e : Entity} (h : m.Holds es)
include h

theorem Holds.entityForView_eq_ok : m.entityForView id = .ok e ↔
    ∃ owner, latest? (hasView id) es = some owner ∧
      latest? (isNamed owner.name) es = some e := by
  unfold entityForView entity
  rw [h.owners]
  cases latest? (hasView id) es with
  | none => simp
  | some owner =>
    simp only [Option.map_some, h.entities, Option.some.injEq, exists_eq_left']
    cases latest? (isNamed owner.name) es <;> simp

theorem Holds.exists_entityForView (he : e ∈ es) (hview : hasView id e = true) :
    ∃ x, m.entityForView id = .ok x := by
  obtain ⟨owner, howner⟩ := exists_latest? he hview
  obtain ⟨x, hx⟩ := exists_latest? (mem_of_latest? howner).1 (isNamed_self owner)
  exact ⟨x, h.entityForView_eq_ok.mpr ⟨owner, howner, hx⟩⟩

/-- The entity that is found for a view has it, and the view is found, unless it is superseded. -/
theorem Holds.view_iff (he : m.entityForView id = .ok e) :
    (∃ v, e.views.lookup id = some v ∧ m.view id = .ok v) ↔ ¬Superseded es id := by
  obtain ⟨owner, howner, hnamed⟩ := h.entityForView_eq_ok.mp he
  rw [← hasView_iff howner hnamed, hasView, Entries.hasKey, Option.isSome_iff_exists]
  constructor
  · rintro ⟨v, hv, -⟩
    exact ⟨v, hv⟩
  · rintro ⟨v, hv⟩
    exact ⟨v, hv, view_eq_ok.mpr ⟨e, he, hv⟩⟩

theorem Holds.exists_view_iff (he : m.entityForView id = .ok e) :
    (∃ v, m.view id = .ok v) ↔ ¬Superseded es id := by
  rw [← h.view_iff he]
  constructor
  · rintro ⟨v, hview⟩
    obtain ⟨e', he', hv⟩ := view_eq_ok.mp hview
    cases he.symm.trans he'
    exact ⟨v, hv, hview⟩
  · rintro ⟨v, -, hview⟩
    exact ⟨v, hview⟩

/-- A superseded view has an owner still. -/
theorem Holds.exists_of_superseded (hid : Superseded es id) :
    ∃ e, m.entityForView id = .ok e := by
  obtain ⟨before, owner, after, rfl, hhas, -⟩ := hid
  exact h.exists_entityForView (List.mem_append_right before List.mem_cons_self) hhas

end
end

/-- Of the entities that make up a model, in any order and with any names and views: the entity that
is found for a view id has the view and the view is found, a view is found exactly if an entity is
found for it, and the views of all entities are found, each time exactly for the ids that are not
superseded. There are no other ones where the names differ. -/
theorem views_resolved {es : List Entity} {m : Model} (h : ofEntities es = .ok m) :
    (∀ id e, m.entityForView id = .ok e →
      ((∃ v, e.views.lookup id = some v ∧ m.view id = .ok v) ↔ ¬Superseded es id)) ∧
    (∀ id, (((∃ v, m.view id = .ok v) ↔ ∃ e, m.entityForView id = .ok e) ↔ ¬Superseded es id)) ∧
    (∀ e ∈ m.allEntities, ∀ id v, e.views.lookup id = some v →
      ((∃ w, m.view id = .ok w) ↔ ¬Superseded es id)) ∧
    ((es.map (·.name)).Nodup → ∀ id, ¬Superseded es id) := by
  have hm := holds_ofEntities h
  refine ⟨fun id e he => hm.view_iff he, fun id => ?_, fun e he id v hv => ?_,
    not_superseded_of_nodup⟩
  · constructor
    · intro hboth hid
      obtain ⟨e, he⟩ := hm.exists_of_superseded hid
      exact (hm.exists_view_iff he).mp (hboth.mpr ⟨e, he⟩) hid
    · intro hkept
      refine ⟨fun ⟨v, hview⟩ => ?_, fun ⟨e, he⟩ => (hm.exists_view_iff he).mpr hkept⟩
      obtain ⟨e, he, -⟩ := view_eq_ok.mp hview
      exact ⟨e, he⟩
  · have hhas : hasView id e = true := by rw [hasView, Entries.hasKey, hv]; rfl
    obtain ⟨x, hx⟩ := hm.exists_entityForView (hm.added e he) hhas
    exact hm.exists_view_iff hx

/-! ## A view that is left without an entity -/

def ofCore (name : String) (views : Entries View) : Entity :=
  ⟨name, .entity, some "rows", [("id", .ofType (.scalar "long"))], views⟩

/-- The second entity takes the view of the first one and is replaced by one without it: the first
one has the view still, and it is not found. -/
theorem lostCore_superseded :
    let core : View := ⟨"core", [], none⟩
    let es := [ofCore "Order" [("core", core)], ofCore "Ticket" [("core", core)],
      ofCore "Ticket" []]
    ∃ m, ofEntities es = .ok m ∧ Superseded es "core" ∧
      (∃ e ∈ m.allEntities, e.views.lookup "core" = some core) ∧
      (∃ e, m.entityForView "core" = .ok e) ∧ ¬∃ v, m.view "core" = .ok v := by
  intro core es
  have hm : ofEntities es = .ok (es.foldl Model.add empty) := rfl
  have hholds := holds_ofEntities hm
  have hid : Superseded es "core" :=
    ⟨[ofCore "Order" [("core", core)]], _, [ofCore "Ticket" []], rfl, rfl, by decide, _,
      List.mem_cons_self, rfl⟩
  have horder : (es.foldl Model.add empty).entities.lookup "Order" =
      some (ofCore "Order" [("core", core)]) := hholds.entities "Order"
  have hmem : ofCore "Order" [("core", core)] ∈ (es.foldl Model.add empty).allEntities :=
    List.mem_map_of_mem (Entries.mem_of_lookup horder)
  obtain ⟨-, -, hviews, -⟩ := views_resolved hm
  refine ⟨_, hm, hid, ⟨_, hmem, rfl⟩, hholds.exists_of_superseded hid, fun hview => ?_⟩
  exact (hviews _ hmem "core" core rfl).mp hview hid

end Polystore.Model
