import Polystore.Engine.Script
import Polystore.Proofs.Engine.Stores
import Polystore.Proofs.Write.Boundaries

/-! # Rows that were made

Inserts and upserts outside of a transaction open one of their own. What fails before its commit
leaves nothing written. The keys that the store hands back are read only afterwards, and a key that
is no value of its field makes the write fail when it is already committed. -/

namespace Polystore
set_option autoImplicit false

section
variable {I : Interface} {b : Backend I} {d : Driver I} {act : Reading I} {α β : Type}

/-! ## Commits in a trace -/

def Committed (es : List (Event d)) : Prop := ∃ tx, Event.call (.commit tx) true ∈ es

theorem committed_append {es es' : List (Event d)} :
    Committed (es ++ es') ↔ Committed es ∨ Committed es' := by
  simp only [Committed, List.mem_append, exists_or]

theorem committed_singleton {a : Act} {ok : Bool} :
    Committed [Event.call (d := d) a ok] ↔ ok = true ∧ ∃ tx, a = .commit tx := by
  constructor
  · rintro ⟨tx, htx⟩
    cases List.mem_singleton.mp htx
    exact ⟨rfl, tx, rfl⟩
  · rintro ⟨rfl, tx, rfl⟩
    exact ⟨tx, List.mem_singleton.mpr rfl⟩

theorem Connected.not_committed {es : List (Event d)} (h : Connected es) : ¬Committed es := by
  rintro ⟨tx, htx⟩
  cases h _ htx

theorem Opened.not_committed {n : Nat} {es : List (Event d)} (h : Opened (.begin n) es) :
    ¬Committed es := by
  obtain ⟨front, hfront, rfl⟩ := h
  rw [committed_append, committed_singleton]
  rintro (hcommitted | ⟨-, tx, htx⟩)
  · exact hfront.not_committed hcommitted
  · cases htx

theorem Unopened.not_committed {n : Nat} {es : List (Event d)} (h : Unopened (.begin n) es) :
    ¬Committed es := by
  obtain ⟨front, hfront, rfl | rfl⟩ := h
  all_goals
    rw [committed_append, committed_singleton]
    rintro (hcommitted | ⟨hok, -⟩)
    · exact hfront.not_committed hcommitted
    · cases hok

theorem Chain.not_committed {place : Place} {es : List (Event d)} {r : Except Error α}
    (h : Chain (.run place) es r) : ¬Committed es := by
  rintro ⟨tx, htx⟩
  cases h with
  | answered hes => cases hes _ htx
  | failed hes =>
    rcases List.mem_append.mp htx with hmem | hmem
    · cases hes _ hmem
    · cases List.mem_singleton.mp hmem

/-! ## A transaction of its own -/

/-- Outside of a transaction a write has failed if none was committed. If one was, its statements
came to a value, and what is made of it afterwards is told. -/
theorem emits_writing_then (hb : Conduct b act) (e : Engine b) {c : Context}
    (hc : ¬Active c e.id) {f : Nat → Run d Error α}
    (hf : ∀ tx, Emits act (f tx) fun _ es r => Chain (.run (.within tx)) es r)
    (g : α → Except Error β) :
    Emits act (e.writing c f >>= fun a => Run.ofExcept (g a)) fun w es r =>
      (¬Committed es ∧ ∃ err, r = .error err) ∨
      (Committed es ∧ ∃ a, (f w.calls.length (b.begin e.handle w).2).1 = .ok a ∧ r = g a) := by
  refine emits_bind (emits_writing hb e c hf) (fun a => emits_ofExcept (g a)) ?_ ?_
  · rintro w w₁ es a es' r - hwrites ⟨rfl, rfl⟩
    rw [List.append_nil]
    generalize hr : (.ok a : Except Error α) = out at hwrites
    cases hwrites with
    | bound hbound _ => exact absurd ⟨_, hbound⟩ hc
    | fresh _ hnew =>
      cases hnew with
      | committed _ _ _ hdone =>
        cases hr
        refine .inr ⟨?_, a, hdone, rfl⟩
        exact committed_append.mpr (.inr (committed_singleton.mpr ⟨rfl, _, rfl⟩))
      | unopened _ => cases hr
      | uncommitted _ _ _ _ => cases hr
      | undone _ _ _ _ => cases hr
  · intro w es err hwrites
    refine .inl ⟨?_, err, rfl⟩
    generalize hr : (.error err : Except Error α) = out at hwrites
    cases hwrites with
    | bound hbound _ => exact absurd ⟨_, hbound⟩ hc
    | fresh _ hnew =>
      cases hnew with
      | committed _ _ _ _ => cases hr
      | unopened hunopened => exact hunopened.not_committed
      | uncommitted hfront _ hes _ =>
        simp only [committed_append, committed_singleton]
        rintro ((hcommitted | hcommitted) | ⟨hok, -⟩)
        · exact hfront.not_committed hcommitted
        · exact hes.not_committed hcommitted
        · cases hok
      | undone hfront _ hes _ =>
        simp only [committed_append, committed_singleton]
        rintro ((hcommitted | hcommitted) | ⟨-, tx, htx⟩)
        · exact hfront.not_committed hcommitted
        · exact hes.not_committed hcommitted
        · cases htx

end

/-! ## Planned payloads -/

theorem Planner.not_fills_foreign {p : Planner} {s : Scope} {name c : String} {f : Field} :
    ¬p.Fills s .foreign name f c := by
  intro hfills
  cases hfills with
  | own _ given => rcases given with hvalue | hnull <;> contradiction
  | nested _ _ held => cases held

theorem Planner.insert_foreign {p : Planner} {s : Scope} {returning : Bool} {w : Insert}
    (h : p.insert s .foreign returning = .ok w) : w.columns = [] := by
  have hnone : ∀ c, c ∉ w.columnNames := by
    intro c hc
    obtain ⟨x, -, hfills⟩ := (Planner.insert_columns h).mp hc
    exact Planner.not_fills_foreign hfills
  exact List.map_eq_nil_iff.mp (List.eq_nil_iff_forall_not_mem.mpr hnone)

/-- The backend compiles no write of a new row without columns. -/
structure NeedsColumns {I : Interface} (b : Backend I) : Prop where
  insert : ∀ {s w st}, b.compileWrite s (.insert w) = .ok st → w.columns ≠ []
  upsert : ∀ {s w st}, b.compileWrite s (.upsert w) = .ok st → w.insert.columns ≠ []

theorem Sql.insertTokens_columns {w : Insert} {ts : Sql.Tokens}
    (h : Sql.insertTokens w = .ok ts) : w.columns ≠ [] := by
  intro hnil
  rw [Sql.insertTokens, hnil] at h
  cases h

theorem Sql.needsColumns (dialect : Sql.Dialect) : NeedsColumns (Sql.backend dialect) where
  insert h := by
    obtain ⟨ts, hts, -⟩ := bind_eq_ok.mp (lift_eq_ok.mp h)
    exact Sql.insertTokens_columns hts
  upsert h := by
    obtain ⟨ts, hts, -⟩ := bind_eq_ok.mp (lift_eq_ok.mp h)
    exact Sql.insertTokens_columns hts

theorem Documents.needsColumns : NeedsColumns Documents.backend where
  insert := by
    intro s w st h hnil
    obtain ⟨st', hst', -⟩ := map_eq_ok.mp h
    rw [Documents.documents, Documents.insert, hnil] at hst'
    cases hst'
  upsert := by
    intro s w st h hnil
    obtain ⟨st', hst', -⟩ := map_eq_ok.mp h
    rw [Documents.documents, Documents.upsert] at hst'
    split at hst'
    · cases hst'
    · rename_i hconflict
      obtain ⟨x, hx, -⟩ := bind_eq_ok.mp hst'
      -- No inserted column can be the first of the conflict columns.
      cases hnames : w.conflict with
      | nil => exact hconflict (by rw [hnames]; rfl)
      | cons name names =>
        rw [hnames, Documents.conflictFilter, Insert.column?, hnil] at hx
        cases hx

section
variable {I : Interface} {b : Backend I} {e : Engine b} {s : Scope} {k : Engine.Creation}
  {p : Payload} {planned : Engine.Planned b}

/-- All that planning a payload comes to. -/
theorem plan_steps (h : e.plan s k p = .ok planned) :
    e.openKey? s.entity p = .ok planned.openKey ∧
      ((∃ w, e.planner.insert s p planned.openKey.isSome = .ok w ∧
          b.compileWrite s (.insert w) = .ok planned.statement) ∨
        ∃ w, e.planner.upsert s p planned.openKey.isSome = .ok w ∧
          b.compileWrite s (.upsert w) = .ok planned.statement) := by
  obtain ⟨key, hkey, hwrite⟩ := bind_eq_ok.mp h
  cases k with
  | insert =>
    obtain ⟨w, hw, hcompile⟩ := bind_eq_ok.mp hwrite
    obtain ⟨w, hinsert, rfl⟩ := map_eq_ok.mp hw
    obtain ⟨st, hst, hplanned⟩ := bind_eq_ok.mp hcompile
    cases hplanned
    exact ⟨lift_eq_ok.mp hkey, .inl ⟨w, hinsert, hst⟩⟩
  | upsert =>
    obtain ⟨w, hw, hcompile⟩ := bind_eq_ok.mp hwrite
    obtain ⟨w, hupsert, rfl⟩ := map_eq_ok.mp hw
    obtain ⟨st, hst, hplanned⟩ := bind_eq_ok.mp hcompile
    cases hplanned
    exact ⟨lift_eq_ok.mp hkey, .inr ⟨w, hupsert, hst⟩⟩

theorem plan_document (hb : NeedsColumns b) (h : e.plan s k p = .ok planned) :
    ∃ doc, p = .document doc := by
  cases p with
  | document doc => exact ⟨doc, rfl⟩
  | foreign =>
    obtain ⟨-, ⟨w, hinsert, hst⟩ | ⟨w, hupsert, hst⟩⟩ := plan_steps h
    · exact absurd (Planner.insert_foreign hinsert) (hb.insert hst)
    · obtain ⟨i, hinsert, hw⟩ := bind_eq_ok.mp hupsert
      cases hw
      exact absurd (Planner.insert_foreign hinsert) (hb.upsert hst)

/-- What writes a key back has been asked for before the key was left to the store. -/
theorem openKey?_mutator {entity : Entity} {name : String}
    (h : e.openKey? entity p = .ok (some name)) :
    e.planner.capabilities.need .mutator entity = .ok () := by
  unfold Engine.openKey? at h
  split at h
  · cases h
  · split at h
    · obtain ⟨-, -, hnull⟩ := bind_eq_ok.mp h
      split at hnull
      · obtain ⟨u, hu, -⟩ := bind_eq_ok.mp hnull
        exact hu
      · cases hnull
    · cases h

/-! ## Keys handed back -/

/-- A key that the store hands back for an open field can be read as a value of the field. -/
def Readable (b : Backend I) (entity : Entity) (field : Option String) (key : Option Value) :
    Prop :=
  ∀ name raw, field = some name → key = some raw → raw.isNull = false →
    ∃ v, b.types.decode (((entity.field? name).map (·.type.typeId)).getD "json") raw = .ok v

theorem writeBack_readable (hb : NeedsColumns b) (h : e.plan s k p = .ok planned)
    (key : Option Value) :
    (Readable b s.entity planned.openKey key ∧
      ∃ p', e.writeBack s.entity planned.openKey key p = .ok p') ∨
    (¬Readable b s.entity planned.openKey key ∧
      ∃ err, e.writeBack s.entity planned.openKey key p = .error (.codec err)) := by
  obtain ⟨hopen, -⟩ := plan_steps h
  obtain ⟨doc, rfl⟩ := plan_document hb h
  unfold Engine.writeBack
  cases hfield : planned.openKey with
  | none => exact .inl ⟨nofun, _, rfl⟩
  | some name =>
    cases key with
    | none => exact .inl ⟨nofun, _, rfl⟩
    | some raw =>
      cases hnull : raw.isNull with
      | true =>
        refine .inl ⟨?_, .document doc, if_pos hnull⟩
        intro _ _ _ hraw hvalue
        cases hraw
        rw [hnull] at hvalue
        cases hvalue
      | false =>
        rw [hfield] at hopen
        simp only [hnull, Bool.false_eq_true, if_false]
        cases hdecode : b.types.decode
            (((s.entity.field? name).map (·.type.typeId)).getD "json") raw with
        | ok v =>
          refine .inl ⟨?_, .document (doc.setPath name v), ?_⟩
          · intro _ _ hname hraw _
            cases hname
            cases hraw
            exact ⟨v, hdecode⟩
          · rw [openKey?_mutator hopen]
            rfl
        | error err =>
          refine .inr ⟨fun hreadable => ?_, err, rfl⟩
          obtain ⟨v, hv⟩ := hreadable name raw rfl rfl hnull
          rw [hdecode] at hv
          cases hv

theorem writeBackAll_readable (hb : NeedsColumns b) {ps : List Payload}
    {all : List (Engine.Planned b)} (h : e.planAll s k ps = .ok all) {keys : List (Option Value)}
    (hlen : keys.length = all.length) :
    ((∀ x ∈ all.zip keys, Readable b s.entity x.1.openKey x.2) ∧
      ∃ ps', e.writeBackAll s.entity ps all keys = .ok ps') ∨
    ((¬∀ x ∈ all.zip keys, Readable b s.entity x.1.openKey x.2) ∧
      ∃ err, e.writeBackAll s.entity ps all keys = .error (.codec err)) := by
  induction ps generalizing all keys with
  | nil =>
    cases h
    exact .inl ⟨nofun, [], rfl⟩
  | cons p ps ih =>
    obtain ⟨first, hfirst, hnext⟩ := bind_eq_ok.mp h
    obtain ⟨rest, hrest, hall⟩ := bind_eq_ok.mp hnext
    cases hall
    cases keys with
    | nil => cases hlen
    | cons key keys =>
      rw [List.zip_cons_cons, List.forall_mem_cons, Engine.writeBackAll]
      rcases writeBack_readable hb hfirst key with ⟨hread, p', hp'⟩ | ⟨hnot, err, herr⟩
      · rcases ih hrest (Nat.succ.inj hlen) with ⟨hreads, ps', hps'⟩ | ⟨hnots, err, herr⟩
        · refine .inl ⟨⟨hread, hreads⟩, p' :: ps', ?_⟩
          rw [hp', hps']
          rfl
        · refine .inr ⟨fun hreads => hnots hreads.2, err, ?_⟩
          rw [hp', herr]
          rfl
      · refine .inr ⟨fun hreads => hnot hreads.1, err, ?_⟩
        rw [herr]
        rfl

end

/-! ## Whole writes -/

section
variable {I : Interface} {b : Backend I} {d : Driver I} {act : Reading I} {α β γ : Type}

/-- The scope, the statements and the keys of a write that runs in a transaction opened now. -/
structure Returned (e : Engine b) (t : Target) (k : Engine.Creation) (ps : List Payload)
    (w : History d) (s : Scope) (all : List (Engine.Planned b)) (keys : List (Option Value)) :
    Prop where
  scope : e.scope t = .ok s
  planned : e.planAll s k ps = .ok all
  answered : (Run.forAll (Engine.execute k w.calls.length) all (b.begin e.handle w).2).1 = .ok keys

def AllReadable (b : Backend I) (entity : Entity) (all : List (Engine.Planned b))
    (keys : List (Option Value)) : Prop :=
  ∀ x ∈ all.zip keys, Readable b entity x.1.openKey x.2

/-- How a write of new rows in a transaction of its own ends. It has succeeded if the transaction is
committed and every key that was handed back can be read. -/
structure Concluded (e : Engine b) (t : Target) (k : Engine.Creation) (ps : List Payload)
    (w : History d) (es : List (Event d)) (r : Except Error β) : Prop where
  returned : Committed es → ∃ s all keys, Returned e t k ps w s all keys
  ok_iff : (∃ x, r = .ok x) ↔ Committed es ∧
    ∃ s all keys, Returned e t k ps w s all keys ∧ AllReadable b s.entity all keys
  /-- What fails after the commit is the decoding of a key. -/
  late : Committed es → ∀ err, r = .error err → ∃ cause, err = .codec cause

variable {e : Engine b} {c : Context} {t : Target} {k : Engine.Creation} {ps : List Payload}

theorem Returned.unique {w : History d} {s s' : Scope} {all all' : List (Engine.Planned b)}
    {keys keys' : List (Option Value)} (h : Returned e t k ps w s all keys)
    (h' : Returned e t k ps w s' all' keys') : s = s' ∧ all = all' ∧ keys = keys' := by
  have hs : s = s' := Except.ok.inj (h.scope.symm.trans h'.scope)
  subst hs
  have hall : all = all' := Except.ok.inj (h.planned.symm.trans h'.planned)
  subst hall
  exact ⟨rfl, rfl, Except.ok.inj (h.answered.symm.trans h'.answered)⟩

theorem concluded_uncommitted {w : History d} {es : List (Event d)} {err : Error}
    (h : ¬Committed es) : Concluded e t k ps w es (.error err : Except Error β) where
  returned hcommitted := absurd hcommitted h
  ok_iff := ⟨nofun, fun hcommitted => absurd hcommitted.1 h⟩
  late hcommitted := absurd hcommitted h

theorem Concluded.map {w : History d} {es : List (Event d)} {r : Except Error β}
    (h : Concluded e t k ps w es r) (f : β → γ) : Concluded e t k ps w es (r.map f) := by
  cases r with
  | ok x =>
    refine ⟨h.returned, ?_, fun _ => nofun⟩
    exact Iff.trans ⟨fun _ => ⟨x, rfl⟩, fun _ => ⟨f x, rfl⟩⟩ h.ok_iff
  | error err =>
    refine ⟨h.returned, ?_, fun hcommitted err' herr => ?_⟩
    · exact Iff.trans ⟨nofun, nofun⟩ h.ok_iff
    · cases herr
      exact h.late hcommitted err rfl

theorem concluded_give (f : β → Result) {m : Run d Error β}
    (h : Emits act m (Concluded e t k ps)) :
    Emits act (Operation.give f m) (Concluded e t k ps) := by
  refine emits_bind h (fun x => emits_done (f x)) ?_ ?_
  · rintro w w₁ es x es' r - hx ⟨rfl, rfl⟩
    rw [List.append_nil]
    exact hx.map f
  · intro w es err herr
    exact herr.map f

theorem concluded_planned {plan : Except Error γ} {m : γ → Run d Error β}
    (hm : ∀ x, plan = .ok x → Emits act (m x) (Concluded e t k ps)) :
    Emits act (Run.ofExcept plan >>= m) (Concluded e t k ps) := by
  cases plan with
  | error err =>
    intro w
    refine ⟨[], .nil w, concluded_uncommitted ?_⟩
    rintro ⟨tx, htx⟩
    cases htx
  | ok x => exact hm x rfl

/-- From the statements to the payloads, when each value of the work tells the keys that the store
handed back and can be put into the payloads if they are readable. -/
theorem concluded_writing (hb : Conduct b act) (hc : ¬Active c e.id) {s : Scope}
    {all : List (Engine.Planned b)} (hscope : e.scope t = .ok s)
    (hplanned : e.planAll s k ps = .ok all) {f : Nat → Run d Error α}
    (hf : ∀ tx, Emits act (f tx) fun _ es r => Chain (.run (.within tx)) es r)
    {g : α → Except Error β} (keys : α → List (Option Value))
    (hkeys : ∀ {tx w a}, (f tx w).1 = .ok a →
      (Run.forAll (Engine.execute k tx) all w).1 = .ok (keys a))
    (hback : ∀ {tx w a}, (f tx w).1 = .ok a →
      (AllReadable b s.entity all (keys a) ∧ ∃ x, g a = .ok x) ∨
        (¬AllReadable b s.entity all (keys a) ∧ ∃ err, g a = .error (.codec err))) :
    Emits act (e.writing c f >>= fun a => Run.ofExcept (g a)) (Concluded e t k ps) := by
  refine (emits_writing_then hb e hc hf g).mono fun w es r h => ?_
  obtain ⟨huncommitted, err, rfl⟩ | ⟨hcommitted, a, ha, rfl⟩ := h
  · exact concluded_uncommitted huncommitted
  · have hreturned : Returned e t k ps w s all (keys a) := ⟨hscope, hplanned, hkeys ha⟩
    have hreadable : (∃ s all keys, Returned e t k ps w s all keys ∧
        AllReadable b s.entity all keys) ↔ AllReadable b s.entity all (keys a) := by
      constructor
      · rintro ⟨s', all', keys', hreturned', hread⟩
        obtain ⟨rfl, rfl, rfl⟩ := hreturned.unique hreturned'
        exact hread
      · exact fun hread => ⟨s, all, keys a, hreturned, hread⟩
    refine ⟨fun _ => ⟨s, all, keys a, hreturned⟩, ?_, ?_⟩
    · rw [hreadable, and_iff_right hcommitted]
      obtain ⟨hread, x, hx⟩ | ⟨hnot, err, herr⟩ := hback ha
      · exact ⟨fun _ => hread, fun _ => ⟨x, hx⟩⟩
      · refine ⟨fun ⟨x, hx⟩ => ?_, fun hread => absurd hread hnot⟩
        rw [herr] at hx
        cases hx
    · intro _ err herr
      obtain ⟨-, x, hx⟩ | ⟨-, cause, hcause⟩ := hback ha
      · rw [hx] at herr
        cases herr
      · rw [hcause] at herr
        cases herr
        exact ⟨cause, rfl⟩

/-! ## Keys of a batch -/

theorem forAll_singleton {f : α → Run d Error β} {x : α} {y : β} {w : History d}
    (h : (f x w).1 = .ok y) : (Run.forAll f [x] w).1 = .ok [y] := by
  show (Run.andThen (f x) _ w).1 = _
  rw [Run.andThen, show f x w = (.ok y, (f x w).2) from Prod.ext h rfl]
  rfl

theorem forAll_length {f : α → Run d Error β} {xs : List α} {ys : List β} {w : History d}
    (h : (Run.forAll f xs w).1 = .ok ys) : ys.length = xs.length := by
  induction xs generalizing ys w with
  | nil =>
    cases h
    rfl
  | cons x xs ih =>
    have hstep : Run.forAll f (x :: xs) w =
        Run.andThen (f x) (fun y => Run.andThen (Run.forAll f xs) fun ys => Run.done (y :: ys)) w :=
      rfl
    rw [hstep, Run.andThen] at h
    cases hx : f x w with
    | mk r w₁ =>
      rw [hx] at h
      cases r with
      | error err => cases h
      | ok y =>
        dsimp only [Run.andThen] at h
        cases hxs : Run.forAll f xs w₁ with
        | mk rs w₂ =>
          rw [hxs] at h
          cases rs with
          | error err => cases h
          | ok rest =>
            cases h
            have hrest := ih (congrArg Prod.fst hxs)
            rw [List.length_cons, hrest, List.length_cons]

theorem planAll_singleton {s : Scope} {p : Payload} {planned : Engine.Planned b}
    (h : e.plan s k p = .ok planned) : e.planAll s k [p] = .ok [planned] := by
  rw [Engine.planAll, h]
  rfl

/-! ## Operations -/

/-- The kind of the rows that an operation makes, and what it makes them of. -/
def Operation.creates? : Operation → Option (Engine.Creation × List Payload)
  | create k p => some (k, [p])
  | createAll k ps => some (k, ps)
  | _ => none

theorem emits_concluded (hb : Conduct b act) (hneeds : NeedsColumns b) (hc : ¬Active c e.id)
    {op : Operation} (hop : op.creates? = some (k, ps)) :
    Emits act (op.run e c t : Run d Error Result) (Concluded e t k ps) := by
  cases op with
  | create k' p =>
    cases hop
    refine concluded_give .payload (concluded_planned ?_)
    rintro ⟨s, planned⟩ hplan
    obtain ⟨s', hscope, hplanned⟩ := bind_eq_ok.mp hplan
    obtain ⟨planned', hplanned, heq⟩ := bind_eq_ok.mp hplanned
    cases heq
    refine concluded_writing hb hc hscope (planAll_singleton hplanned)
      (fun tx => (emits_execute hb k tx planned).mono fun w es r h => h.chain)
      (fun key => [key]) forAll_singleton fun {_ _ key} _ => ?_
    have hread : AllReadable b s.entity [planned] [key] ↔
        Readable b s.entity planned.openKey key := List.forall_mem_singleton
    rw [hread]
    exact writeBack_readable hneeds hplanned key
  | createAll k' ps' =>
    cases hop
    refine concluded_give .payloads (concluded_planned ?_)
    rintro ⟨s, all⟩ hplan
    obtain ⟨s', hscope, hplanned⟩ := bind_eq_ok.mp hplan
    obtain ⟨all', hplanned, heq⟩ := bind_eq_ok.mp hplanned
    cases heq
    refine concluded_writing hb hc hscope hplanned
      (fun tx => (emits_forAll_sends (emits_execute hb k tx) all).mono fun w es r h => ?_)
      (fun keys => keys) (fun h => h) fun h => ?_
    · exact h.chain
    · exact writeBackAll_readable hneeds hplanned (forAll_length h)
  | _ => cases hop

/-- Inserts and upserts outside of a transaction succeed exactly if the transaction that they opened
is committed and every key handed back for an open key field is a value of the type of the field. -/
theorem creations_concluded {op : Operation} {k : Engine.Creation} {ps : List Payload}
    (hop : op.creates? = some (k, ps)) (t : Target) {c : Context} {engine : Nat}
    (hc : ¬Active c engine) :
    (∀ {dialect : Sql.Dialect} {d : Driver Sql.interface} (e : Engine (Sql.backend dialect)),
      e.id = engine → ∀ w : History d, ∃ es, Path Sql.Call.act w es (op.run e c t w).2 ∧
        Concluded e t k ps w es (op.run e c t w).1) ∧
    ∀ {d : Driver Documents.interface} (e : Engine Documents.backend), e.id = engine →
      ∀ w : History d, ∃ es, Path Documents.Call.act w es (op.run e c t w).2 ∧
        Concluded e t k ps w es (op.run e c t w).1 := by
  constructor
  · rintro dialect d e rfl
    exact emits_concluded (Sql.conduct dialect) (Sql.needsColumns dialect) hc hop
  · rintro d e rfl
    exact emits_concluded Documents.conduct Documents.needsColumns hc hop

end

/-! ## A key that is no number -/

def ticket : Entity :=
  ⟨"Ticket", .entity, some "tickets",
    [("id", ⟨.scalar "long", true, true, []⟩), ("name", .ofType (.scalar "string"))],
    [("core", ⟨"core", [], none⟩)]⟩

def tickets : Engine (Sql.backend .postgres) where
  id := 0
  handle := .ofId "main"
  model := ⟨[("Ticket", ticket)], [("core", "Ticket")]⟩
  planner := ⟨.explicit, [], [("Ticket", Capability.all)]⟩
  validation _ _ _ := .ok ()
  propagation := .required

/-- A driver that answers every call, and every query with the key `seven`. -/
def worded : Driver Sql.interface where
  State := Unit
  answer _ c :=
    (.ok (Sql.scriptedReply { Script.empty with rows := [[("id", .str "seven")]] } c), ())

theorem worded_answers {w w' : History worded} {es : List (Event worded)}
    (h : Path Sql.Call.act w es w') {c : Sql.Call} (hc : c ∈ w'.calls) :
    c ∈ w.calls ∨ ∃ n, Event.call (Sql.Call.act n c) true ∈ es := by
  induction h with
  | nil w => exact .inl hc
  | @call w w' es c' _ ih =>
    rcases ih hc with hmem | ⟨n, hn⟩
    · rcases List.mem_append.mp hmem with hmem | hmem
      · exact .inl hmem
      · cases List.mem_singleton.mp hmem
        exact .inr ⟨w.calls.length, .head _⟩
    · exact .inr ⟨n, .tail _ hn⟩
  | outside change _ ih =>
    rcases ih hc with hmem | ⟨n, hn⟩
    · exact .inl hmem
    · exact .inr ⟨n, .tail _ hn⟩

/-- No call was made yet. -/
def unused : History worded := ⟨(), []⟩

def newTicket : Operation := .create .insert (.document [("name", .str "stalls")])

/-- The ticket is committed, and its insert fails. -/
theorem newTicket_fails :
    newTicket.creates? = some (.insert, [.document [("name", .str "stalls")]]) ∧
    ¬Active tickets.context 0 ∧
    ∃ es, Path Sql.Call.act unused es
        (newTicket.run tickets tickets.context ⟨"Ticket", "core"⟩ unused).2 ∧
      Committed es ∧
      refusal? (newTicket.run tickets tickets.context ⟨"Ticket", "core"⟩ unused).1 =
        some (.codec (.decode "long" "string" "'seven' is not an integer")) ∧
      ∃ s all keys, ¬AllReadable (Sql.backend .postgres) (Scope.entity s) all keys ∧
        Returned tickets ⟨"Ticket", "core"⟩ .insert [.document [("name", .str "stalls")]] unused
          s all keys := by
  have hc : ¬Active tickets.context 0 := by
    rintro ⟨tx, -, htx⟩
    cases htx
  have hresult : refusal? (newTicket.run tickets tickets.context ⟨"Ticket", "core"⟩ unused).1 =
      some (.codec (.decode "long" "string" "'seven' is not an integer")) := by decide +kernel
  have hcommit : (newTicket.run tickets tickets.context ⟨"Ticket", "core"⟩ unused).2.calls.any
      (fun call => call.name == "commit") = true := by decide +kernel
  obtain ⟨es, hpath, hes⟩ :=
    (@creations_concluded newTicket _ _ rfl ⟨"Ticket", "core"⟩ _ _ hc).1 tickets rfl unused
  have hcommitted : Committed es := by
    obtain ⟨call, hmem, hname⟩ := List.any_eq_true.mp hcommit
    obtain hmem | ⟨n, hn⟩ := worded_answers hpath hmem
    · cases hmem
    · cases call with
      | commit tx => exact ⟨tx, hn⟩
      | _ => cases hname
  obtain ⟨s, all, keys, hreturned⟩ := hes.returned hcommitted
  refine ⟨rfl, hc, es, hpath, hcommitted, hresult, s, all, keys, fun hread => ?_, hreturned⟩
  obtain ⟨x, hx⟩ := hes.ok_iff.mpr ⟨hcommitted, s, all, keys, hreturned, hread⟩
  rw [hx] at hresult
  cases hresult

end Polystore
