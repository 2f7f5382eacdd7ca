import Polystore.Proofs.Engine.Creations
import Polystore.Proofs.Value.Overlays
import Polystore.Proofs.Write.GeneratedKeys

/-! # Batches

A batch that succeeds does to its driver what its parts do one after the other in one transaction,
and comes to the same. Each payload gets the key that came back for its own statement. The key is
written at a path and not at a field, so it is found there if the name of the field has no dots. -/

namespace Polystore
set_option autoImplicit false

section
variable {I : Interface} {b : Backend I} {d : Driver I} {ε α β γ : Type}

/-! ## Runs that succeed -/

theorem run_bind_eq_ok {m : Run d ε α} {f : α → Run d ε β} {w w' : History d} {y : β} :
    (m >>= f) w = (.ok y, w') ↔ ∃ x w₁, m w = (.ok x, w₁) ∧ f x w₁ = (.ok y, w') := by
  show Run.andThen m f w = _ ↔ _
  rw [Run.andThen]
  obtain ⟨r, w₁⟩ := m w
  cases r with
  | ok x =>
    constructor
    · exact fun h => ⟨x, w₁, rfl, h⟩
    · rintro ⟨x', w₁', heq, h⟩
      cases heq
      exact h
  | error e =>
    constructor
    · intro h
      cases h
    · rintro ⟨x', w₁', heq, -⟩
      cases heq

theorem run_ofExcept_eq_ok {r : Except ε α} {w w' : History d} {x : α} :
    (Run.ofExcept r : Run d ε α) w = (.ok x, w') ↔ r = .ok x ∧ w = w' := Prod.ext_iff

/-- Steps one after the other, each from where the one before it has led. -/
inductive Each (step : α → History d → β → History d → Prop) :
    List α → History d → List β → History d → Prop
  | nil (w : History d) : Each step [] w [] w
  | cons {x : α} {xs : List α} {y : β} {ys : List β} {w w₁ w' : History d} :
      step x w y w₁ → Each step xs w₁ ys w' → Each step (x :: xs) w (y :: ys) w'

theorem forAll_each {f : α → Run d ε β} {xs : List α} {ys : List β} {w w' : History d}
    (h : Run.forAll f xs w = (.ok ys, w')) :
    Each (fun x w y w₁ => f x w = (.ok y, w₁)) xs w ys w' := by
  induction xs generalizing w ys with
  | nil =>
    cases h
    exact .nil w'
  | cons x xs ih =>
    obtain ⟨y, w₁, hy, h⟩ := run_bind_eq_ok.mp h
    obtain ⟨ys, w₂, hys, h⟩ := run_bind_eq_ok.mp h
    cases h
    exact .cons hy (ih hys)

theorem Each.mono {step step' : α → History d → β → History d → Prop} {xs : List α} {ys : List β}
    {w w' : History d} (h : Each step xs w ys w')
    (hstep : ∀ x w y w₁, step x w y w₁ → step' x w y w₁) : Each step' xs w ys w' := by
  induction h with
  | nil w => exact .nil w
  | cons hfirst _ ih => exact .cons (hstep _ _ _ _ hfirst) ih

/-- A request that was sent, and answered with something that could be read. -/
inductive Answered (q : Except Error (Request I α)) (w : History d) (x : α) : History d → Prop
  | mk {r : Request I α} {reply : I.Reply r.call} {state : d.State} :
      q = .ok r → d.answer w.state r.call = (.ok reply, state) → r.read reply = .ok x →
      Answered q w x ⟨state, w.calls ++ [r.call]⟩

theorem answered_of_sendIf {q : Except Error (Request I α)} {w w' : History d} {x : α}
    (h : (Request.sendIf q : Run d Error α) w = (.ok x, w')) : Answered q w x w' := by
  cases q with
  | error err => cases h
  | ok r =>
    have hsend : (r.send : Run d Error α) w = (.ok x, w') := h
    rw [Request.send] at hsend
    cases hanswer : d.answer w.state r.call with
    | mk out state =>
      rw [hanswer] at hsend
      cases out with
      | error cause => cases hsend
      | ok reply =>
        obtain ⟨hread, rfl⟩ := Prod.ext_iff.mp hsend
        exact .mk rfl hanswer hread

/-! ## One transaction -/

/-- Work that was done in the transaction of a context, or in one that was opened for it and then
committed. -/
inductive OneTransaction (e : Engine b) (c : Context) (w w' : History d)
    (work : Context → Nat → History d → History d → Prop) : Prop
  | bound {tx : Nat} : c.txOf? e.id = some tx → work c tx w w' → OneTransaction e c w w' work
  | fresh {tx : Nat} {w₁ w₂ : History d} : c.txOf? e.id = none → b.begin e.handle w = (.ok tx, w₁) →
      work ⟨e.id, some tx⟩ tx w₁ w₂ → (b.commit tx).send w₂ = (.ok (), w') →
      OneTransaction e c w w' work

theorem OneTransaction.mono {e : Engine b} {c : Context} {w w' : History d}
    {work work' : Context → Nat → History d → History d → Prop}
    (h : OneTransaction e c w w' work)
    (hwork : ∀ c tx w w', c.txOf? e.id = some tx → work c tx w w' → work' c tx w w') :
    OneTransaction e c w w' work' := by
  cases h with
  | bound htx h => exact .bound htx (hwork _ _ _ _ htx h)
  | fresh htx hbegin h hcommit =>
    exact .fresh htx hbegin (hwork _ _ _ _ (txOf?_self e.id _) h) hcommit

theorem inNew_eq_ok {e : Engine b} {raise : Option α → Error → ε} {work : Context → Run d ε α}
    {w w' : History d} {x : α} : e.inNew raise work w = (.ok x, w') ↔
      ∃ tx w₁ w₂, b.begin e.handle w = (.ok tx, w₁) ∧ work ⟨e.id, some tx⟩ w₁ = (.ok x, w₂) ∧
        (b.commit tx).send w₂ = (.ok (), w') := by
  rw [Engine.inNew]
  constructor
  · intro h
    split at h
    · cases h
    · rename_i tx w₁ hbegin
      split at h
      · rename_i y w₂ hwork
        split at h
        · rename_i w₃ hcommit
          cases h
          exact ⟨tx, w₁, w₂, hbegin, hwork, hcommit⟩
        · cases h
      · cases h
  · rintro ⟨tx, w₁, w₂, hbegin, hwork, hcommit⟩
    simp only [hbegin, hwork, hcommit]

theorem inTx_required_eq_ok {e : Engine b} {raise : Option α → Error → ε} {c : Context}
    {work : Context → Run d ε α} {w w' : History d} {x : α} :
    e.inTx raise c .required work w = (.ok x, w') ↔
      OneTransaction e c w w' fun c _ w w' => work c w = (.ok x, w') := by
  unfold Engine.inTx
  cases htx : c.txOf? e.id with
  | some tx =>
    constructor
    · exact fun h => .bound htx h
    · intro h
      cases h with
      | bound _ h => exact h
      | fresh hnone => cases htx.symm.trans hnone
  | none =>
    show e.inNew raise work w = _ ↔ _
    rw [inNew_eq_ok]
    constructor
    · rintro ⟨tx, w₁, w₂, hbegin, hwork, hcommit⟩
      exact .fresh htx hbegin hwork hcommit
    · intro h
      cases h with
      | bound hsome => cases htx.symm.trans hsome
      | fresh _ hbegin hwork hcommit => exact ⟨_, _, _, hbegin, hwork, hcommit⟩

theorem writing_eq_ok {e : Engine b} {c : Context} {f : Nat → Run d Error α} {w w' : History d}
    {x : α} : e.writing c f w = (.ok x, w') ↔
      OneTransaction e c w w' fun _ tx w w' => f tx w = (.ok x, w') := by
  rw [writing_eq, inTx_required_eq_ok]
  have hwith : ∀ (c : Context) tx, c.txOf? e.id = some tx → withTx e f c = f tx := by
    intro c tx htx
    rw [withTx, htx]
  constructor
  · exact fun h => h.mono fun c tx w w' htx hwork => hwith c tx htx ▸ hwork
  · exact fun h => h.mono fun c tx w w' htx hwork => (hwith c tx htx).symm ▸ hwork

theorem writing_bound {e : Engine b} {c : Context} {tx : Nat} (htx : c.txOf? e.id = some tx)
    (f : Nat → Run d Error α) : e.writing c f = f tx := by
  rw [writing_eq, Engine.inTx, htx]
  show withTx e f c = f tx
  rw [withTx, htx]

end

/-! ## What is written back -/

/-- What a payload becomes with the key that came back. If it left its key field open and the key is
not null, the decoded key is put at the path that the name of the field is. -/
inductive Filled (types : TypeTable) (entity : Entity) : Payload → Option Value → Payload → Prop
  | kept {p : Payload} {key : Option Value} :
      (∀ field, ¬LeftOpen entity p field) ∨ (∀ raw, key = some raw → raw.isNull = true) →
      Filled types entity p key p
  | put {doc : Document} {field : String} {raw v : Value}
      (opened : LeftOpen entity (.document doc) field) (given : raw.isNull = false)
      (decoded : types.decode (((entity.field? field).map (·.type.typeId)).getD "json") raw = .ok v)
      (others : ∀ name, (segments field).head? ≠ some name →
        (doc.setPath field v).lookup name = doc.lookup name)
      (there : v.isNull = false →
        ((doc.setPath field v).lookup field = some v ↔ '.' ∉ field.toList)) :
      Filled types entity (.document doc) (some raw) (.document (doc.setPath field v))

theorem found_at_field {doc : Document} {field : String} {v : Value}
    (hnull : ((Payload.document doc).get field).isNull = true) (hv : v.isNull = false) :
    (doc.setPath field v).lookup field = some v ↔ '.' ∉ field.toList := by
  constructor
  · intro hfound hdot
    have hhead : (segments field).head? ≠ some field := by
      intro hhead
      exact not_mem_segments (List.mem_of_head? hhead) hdot
    rw [Document.lookup_setPath_of_ne hhead] at hfound
    have hget : (Payload.document doc).get field = v := by
      show (doc.lookup field).getD .null = v
      rw [hfound, Option.getD_some]
    rw [hget, hv] at hnull
    cases hnull
  · intro hdot
    unfold Document.setPath
    rw [segments_of_undotted hdot]
    exact Entries.lookup_insert_self

section
variable {I : Interface} {b : Backend I} {d : Driver I} {e : Engine b} {c : Context} {t : Target}
  {s : Scope} {k : Engine.Creation}

theorem writeBack_filled {p p' : Payload} {field : Option String} {key : Option Value}
    (hopen : e.openKey? s.entity p = .ok field)
    (h : e.writeBack s.entity field key p = .ok p') : Filled b.types s.entity p key p' := by
  cases field with
  | none =>
    cases h
    refine .kept (.inl fun name hname => ?_)
    cases (Engine.openKey?_eq hopen name).mpr hname
  | some field =>
    have hleft := (Engine.openKey?_eq hopen field).mp rfl
    cases key with
    | none =>
      cases h
      exact .kept (.inr nofun)
    | some raw =>
      unfold Engine.writeBack at h
      dsimp only at h
      split at h
      · rename_i hnull
        cases h
        refine .kept (.inr fun raw' hraw => ?_)
        cases hraw
        exact hnull
      · rename_i hgiven
        obtain ⟨v, hv, h⟩ := bind_eq_ok.mp h
        obtain ⟨-, -, h⟩ := bind_eq_ok.mp h
        cases p with
        | foreign => cases h
        | document doc =>
          cases h
          exact .put hleft (Bool.not_eq_true _ ▸ hgiven) (lift_eq_ok.mp hv)
            (fun name hname => Document.lookup_setPath_of_ne hname v doc)
            (found_at_field hleft.2.2)

/-! ## Rows that are made one after the other -/

/-- The request that makes a row. -/
def Engine.Creation.request (k : Engine.Creation) (tx : Nat) (planned : Engine.Planned b) :
    Except Error (Request I (Option Value)) :=
  match k with
  | .insert => b.insert tx planned.statement
  | .upsert => b.upsert tx planned.statement

/-- A payload is planned, its statement is answered, and it is filled with the key that came back. -/
inductive Creates (e : Engine b) (s : Scope) (k : Engine.Creation) (tx : Nat) (p : Payload)
    (w : History d) (p' : Payload) (w' : History d) : Prop
  | mk {planned : Engine.Planned b} {key : Option Value} : e.plan s k p = .ok planned →
      Answered (k.request tx planned) w key w' → Filled b.types s.entity p key p' →
      Creates e s k tx p w p' w'

/-- In the transaction of its context a payload is written by its statement alone. -/
theorem create_bound {tx : Nat} (htx : c.txOf? e.id = some tx) (hscope : e.scope t = .ok s)
    {p p' : Payload} {planned : Engine.Planned b} {key : Option Value} {w w' : History d}
    (hplan : e.plan s k p = .ok planned)
    (hsend : Engine.execute k tx planned w = (.ok key, w'))
    (hback : e.writeBack s.entity planned.openKey key p = .ok p') :
    (e.create k c t p : Run d Error Payload) w = (.ok p', w') := by
  refine run_bind_eq_ok.mpr ⟨(s, planned), w, run_ofExcept_eq_ok.mpr ⟨?_, rfl⟩, ?_⟩
  · exact bind_eq_ok.mpr ⟨s, hscope, bind_eq_ok.mpr ⟨planned, hplan, rfl⟩⟩
  · refine run_bind_eq_ok.mpr ⟨key, w', ?_, run_ofExcept_eq_ok.mpr ⟨hback, rfl⟩⟩
    rw [writing_bound htx]
    exact hsend

/-- Plans, keys and payloads of a batch belong together one by one. -/
theorem batch_each {tx : Nat} {ps ps' : List Payload} {all : List (Engine.Planned b)}
    {keys : List (Option Value)} {w w' : History d} (hplan : e.planAll s k ps = .ok all)
    (hsend : Each (fun planned w key w₁ => Engine.execute k tx planned w = (.ok key, w₁))
      all w keys w')
    (hback : e.writeBackAll s.entity ps all keys = .ok ps') :
    Each (fun p w p' w₁ => ∃ planned key, e.plan s k p = .ok planned ∧
      Engine.execute k tx planned w = (.ok key, w₁) ∧
      e.writeBack s.entity planned.openKey key p = .ok p') ps w ps' w' := by
  induction ps generalizing all keys ps' w with
  | nil =>
    cases hplan
    cases hsend
    cases hback
    exact .nil w'
  | cons p ps ih =>
    obtain ⟨planned, hp, hplan⟩ := bind_eq_ok.mp hplan
    obtain ⟨rest, hrest, hplan⟩ := bind_eq_ok.mp hplan
    cases hplan
    cases hsend with
    | cons hfirst hothers =>
      obtain ⟨p', hp', hback⟩ := bind_eq_ok.mp hback
      obtain ⟨rest', hrest', hback⟩ := bind_eq_ok.mp hback
      cases hback
      exact .cons ⟨planned, _, hp, hfirst, hp'⟩ (ih hrest hothers hrest')

theorem createAll_each {ps ps' : List Payload} {w w' : History d}
    (h : e.createAll k c t ps w = (.ok ps', w')) :
    ∃ s, e.scope t = .ok s ∧ OneTransaction e c w w' fun _ tx w w' =>
      Each (fun p w p' w₁ => ∃ planned key, e.plan s k p = .ok planned ∧
        Engine.execute k tx planned w = (.ok key, w₁) ∧
        e.writeBack s.entity planned.openKey key p = .ok p') ps w ps' w' := by
  obtain ⟨⟨s, all⟩, w₁, hplanned, h⟩ := run_bind_eq_ok.mp h
  obtain ⟨hplan, rfl⟩ := run_ofExcept_eq_ok.mp hplanned
  obtain ⟨s', hscope, hplan⟩ := bind_eq_ok.mp hplan
  obtain ⟨all', hall, hplan⟩ := bind_eq_ok.mp hplan
  cases hplan
  obtain ⟨keys, w₂, hwriting, h⟩ := run_bind_eq_ok.mp h
  obtain ⟨hback, rfl⟩ := run_ofExcept_eq_ok.mp h
  exact ⟨s, hscope, (writing_eq_ok.mp hwriting).mono fun c tx w w' _ hsend =>
    batch_each hall (forAll_each hsend) hback⟩

/-! ## Rows that are changed one after the other -/

/-- A payload is planned, and its statement is answered with a count. -/
inductive Updates (e : Engine b) (s : Scope) (tx : Nat) (p : Payload) (w : History d) (n : UInt64)
    (w' : History d) : Prop
  | mk {st : b.Statement} : e.planUpdate s p = .ok st → Answered (b.update tx st) w n w' →
      Updates e s tx p w n w'

theorem update_bound {tx : Nat} (htx : c.txOf? e.id = some tx) (hscope : e.scope t = .ok s)
    {p : Payload} {st : b.Statement} {n : UInt64} {w w' : History d}
    (hplan : e.planUpdate s p = .ok st) (hsend : Engine.executeUpdate tx st w = (.ok n, w')) :
    (e.update c t p : Run d Error UInt64) w = (.ok n, w') := by
  refine run_bind_eq_ok.mpr ⟨st, w, run_ofExcept_eq_ok.mpr ⟨?_, rfl⟩, ?_⟩
  · exact bind_eq_ok.mpr ⟨s, hscope, hplan⟩
  · rw [writing_bound htx]
    exact hsend

theorem updates_each {tx : Nat} {ps : List Payload} {sts : List b.Statement} {counts : List UInt64}
    {w w' : History d} (hplan : e.planUpdates s ps = .ok sts)
    (hsend : Each (fun st w n w₁ => Engine.executeUpdate tx st w = (.ok n, w₁)) sts w counts w') :
    Each (fun p w n w₁ => ∃ st, e.planUpdate s p = .ok st ∧
      Engine.executeUpdate tx st w = (.ok n, w₁)) ps w counts w' := by
  induction ps generalizing sts counts w with
  | nil =>
    cases hplan
    cases hsend
    exact .nil w'
  | cons p ps ih =>
    obtain ⟨st, hst, hplan⟩ := bind_eq_ok.mp hplan
    obtain ⟨rest, hrest, hplan⟩ := bind_eq_ok.mp hplan
    cases hplan
    cases hsend with
    | cons hfirst hothers => exact .cons ⟨st, hst, hfirst⟩ (ih hrest hothers)

theorem updateAll_each {ps : List Payload} {n : UInt64} {w w' : History d}
    (h : e.updateAll c t ps w = (.ok n, w')) :
    ∃ s counts, e.scope t = .ok s ∧ n = counts.foldl (· + ·) 0 ∧
      OneTransaction e c w w' fun _ tx w w' =>
        Each (fun p w n w₁ => ∃ st, e.planUpdate s p = .ok st ∧
          Engine.executeUpdate tx st w = (.ok n, w₁)) ps w counts w' := by
  obtain ⟨sts, w₁, hplanned, h⟩ := run_bind_eq_ok.mp h
  obtain ⟨hplan, rfl⟩ := run_ofExcept_eq_ok.mp hplanned
  obtain ⟨s, hscope, hplan⟩ := bind_eq_ok.mp hplan
  obtain ⟨counts, w₂, hwriting, h⟩ := run_bind_eq_ok.mp h
  cases h
  exact ⟨s, counts, hscope, rfl, (writing_eq_ok.mp hwriting).mono fun c tx w w' _ hsend =>
    updates_each hplan (forAll_each hsend)⟩

/-! ## Steps of a unit -/

theorem runAll_cons {step : Step b d} {steps : List (Step b d)} {r : Result} {w w₁ : History d}
    (h : step.run c w = (.ok r, w₁)) (rs : List Result) :
    Step.runAll c rs none (step :: steps) w = Step.runAll c (rs ++ [r]) none steps w₁ := by
  simp only [Step.runAll, h]

theorem runAll_each {α β : Type} {f : α → Step b d} {g : β → Result} {xs : List α} {ys : List β}
    {w w' : History d} (h : Each (fun x w y w₁ => (f x).run c w = (.ok (g y), w₁)) xs w ys w')
    (rs : List Result) :
    Step.runAll c rs none (xs.map f) w = (.ok (rs ++ ys.map g), w') := by
  induction h generalizing rs with
  | nil w =>
    rw [List.map_nil, List.map_nil, List.append_nil]
    rfl
  | cons hfirst _ ih =>
    rw [List.map_cons, runAll_cons hfirst, ih, List.map_cons, List.append_assoc]
    rfl

/-- A unit that needs a transaction, of operations of one kind. -/
def unitOf (e : Engine b) (t : Target) (ops : List Operation) (reported : Bool) : Step b d :=
  .unit e .required (ops.map (.operation e t)) none reported

theorem unitOf_run {α β : Type} {op : α → Operation} {g : β → Result} {xs : List α} {ys : List β}
    {w w' : History d} {reported : Bool} (h : OneTransaction e c w w' fun c _ w w' =>
      Each (fun x w y w₁ => (op x).run e c t w = (.ok (g y), w₁)) xs w ys w') :
    (unitOf e t (xs.map op) reported).run c w = (.ok (.unit (ys.map g)), w') := by
  rw [unitOf, Step.run, Step.conclude, inTx_required_eq_ok.mpr]
  refine h.mono fun c tx w w' _ heach => ?_
  rw [List.map_map]
  exact runAll_each heach []

/-- A batch of new rows that succeeds is the unit of its single writes: the same calls from every
history of every driver, and the same payloads. Each payload is planned, answered and filled for
itself, all in one transaction. A batch of updates is the unit of its single updates, and its count
is the sum of theirs. -/
theorem batches_as_singles (e : Engine b) (c : Context) (t : Target) (reported : Bool)
    (w w' : History d) :
    (∀ k ps ps', e.createAll k c t ps w = (.ok ps', w') →
      (unitOf e t (ps.map (.create k)) reported).run c w = (.ok (.unit (ps'.map .payload)), w') ∧
      ∃ s, e.scope t = .ok s ∧
        OneTransaction e c w w' fun _ tx w w' => Each (Creates e s k tx) ps w ps' w') ∧
    ∀ ps n, e.updateAll c t ps w = (.ok n, w') → ∃ counts : List UInt64,
      (unitOf e t (ps.map .update) reported).run c w =
        (.ok (.unit (counts.map .number)), w') ∧ n = counts.foldl (· + ·) 0 ∧
      ∃ s, e.scope t = .ok s ∧
        OneTransaction e c w w' fun _ tx w w' => Each (Updates e s tx) ps w counts w' := by
  constructor
  · intro k ps ps' h
    obtain ⟨s, hscope, h⟩ := createAll_each h
    refine ⟨unitOf_run (h.mono fun c tx w w' htx heach => ?_), s, hscope,
      h.mono fun c tx w w' _ heach => ?_⟩
    · refine heach.mono fun p w p' w₁ ⟨planned, key, hplan, hsend, hback⟩ => ?_
      exact run_bind_eq_ok.mpr ⟨p', w₁, create_bound htx hscope hplan hsend hback, rfl⟩
    · refine heach.mono fun p w p' w₁ ⟨planned, key, hplan, hsend, hback⟩ => ?_
      exact .mk hplan (answered_of_sendIf hsend) (writeBack_filled (plan_steps hplan).1 hback)
  · intro ps n h
    obtain ⟨s, counts, hscope, hsum, h⟩ := updateAll_each h
    refine ⟨counts, unitOf_run (h.mono fun c tx w w' htx heach => ?_),
      hsum, s, hscope, h.mono fun c tx w w' _ heach => ?_⟩
    · refine heach.mono fun p w n w₁ ⟨st, hplan, hsend⟩ => ?_
      exact run_bind_eq_ok.mpr ⟨n, w₁, update_bound htx hscope hplan hsend, rfl⟩
    · exact heach.mono fun p w n w₁ ⟨st, hplan, hsend⟩ => .mk hplan (answered_of_sendIf hsend)

end

/-! ## A key whose field has a dot -/

def gem : Entity :=
  ⟨"Gem", .entity, some "gems",
    [("meta.id", ⟨.scalar "long", true, true, []⟩), ("meta", .ofType (.scalar "string"))],
    [("core", ⟨"core", [("meta.id", .direct "id")], none⟩)]⟩

def gems : Engine (Sql.backend .postgres) where
  id := 0
  handle := .ofId "main"
  model := ⟨[("Gem", gem)], [("core", "Gem")]⟩
  planner := ⟨.explicit, [], [("Gem", Capability.all)]⟩
  validation _ _ _ := .ok ()
  propagation := .required

/-- A driver that answers every call, and every query with the key 7. -/
def numbered : Driver Sql.interface where
  State := Unit
  answer _ c :=
    (.ok (Sql.scriptedReply { Script.empty with rows := [[("id", .long 7)]] } c), ())

def blueGem : Payload := .document [("meta", .str "blue")]

/-- The only payload of a batch, if the batch has succeeded and that is a document. -/
def onlyDocument? : Except Error (List Payload) → Option Document
  | .ok [.document doc] => some doc
  | _ => none

theorem eq_ok_of_onlyDocument? {r : Except Error (List Payload)} {doc : Document}
    (h : onlyDocument? r = some doc) : r = .ok [.document doc] := by
  unfold onlyDocument? at h
  split at h
  · cases h
    rfl
  · cases h

/-- The key takes the place of the text that stood under the first part of its name. -/
theorem blueGem_overwritten : ∃ doc w', gems.createAll .insert gems.context ⟨"Gem", "core"⟩ [blueGem]
      (⟨(), []⟩ : History numbered) = (.ok [.document doc], w') ∧
    (unitOf gems ⟨"Gem", "core"⟩ [.create .insert blueGem] false).run gems.context ⟨(), []⟩ =
      (.ok (.unit [.payload (.document doc)]), w') ∧
    doc.lookup "meta.id" = none ∧ (doc.lookup "meta").bind Value.str? = none := by
  have hrun : ((onlyDocument? (gems.createAll .insert gems.context ⟨"Gem", "core"⟩ [blueGem]
      (⟨(), []⟩ : History numbered)).1).any fun doc =>
        (doc.lookup "meta.id").isNone && ((doc.lookup "meta").bind Value.str?).isNone) = true := by
    decide +kernel
  obtain ⟨doc, hdoc⟩ := Option.isSome_iff_exists.mp (Option.isSome_of_any hrun)
  rw [hdoc, Option.any_some, Bool.and_eq_true, Option.isNone_iff_eq_none,
    Option.isNone_iff_eq_none] at hrun
  have hbatch : gems.createAll .insert gems.context ⟨"Gem", "core"⟩ [blueGem]
      (⟨(), []⟩ : History numbered) = (.ok [.document doc], _) :=
    Prod.ext (eq_ok_of_onlyDocument? hdoc) rfl
  obtain ⟨hunit, -⟩ := (batches_as_singles gems gems.context ⟨"Gem", "core"⟩ false _ _).1 .insert
    [blueGem] [.document doc] hbatch
  exact ⟨doc, _, hbatch, hunit, hrun.1, hrun.2⟩

end Polystore
