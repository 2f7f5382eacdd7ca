import Polystore.Engine.Program
import Polystore.Proofs.Engine.Conduct
import Polystore.Proofs.Outcome

/-! # Attempts to write

A write plans its statements, and then tries to send one after the other in the transaction of its
context or in one of its own. It stops at the first statement that no request can be made of, and at
the first one that is not answered. -/

namespace Polystore
set_option autoImplicit false

/-! ## Statements of a write -/

inductive WriteKind where
  | insert | upsert | update | delete
deriving DecidableEq, Repr

def Write.kind : Write → WriteKind
  | insert _ => .insert
  | update _ => .update
  | delete _ => .delete
  | upsert _ => .upsert

def Engine.Creation.kind : Engine.Creation → WriteKind
  | insert => .insert
  | upsert => .upsert

section
variable {I : Interface} {b : Backend I} {d : Driver I} {act : Reading I} {α β γ : Type}

/-- Why there is no request. -/
def refusal? : Except Error α → Option Error
  | .ok _ => none
  | .error err => some err

def Backend.refusal? (b : Backend I) (tx : Nat) : WriteKind × b.Statement → Option Error
  | (.insert, st) => Polystore.refusal? (b.insert tx st)
  | (.upsert, st) => Polystore.refusal? (b.upsert tx st)
  | (.update, st) => Polystore.refusal? (b.update tx st)
  | (.delete, st) => Polystore.refusal? (b.delete tx st)

/-- What an operation is to send, planned before anything is sent. -/
def Operation.statements (e : Engine b) (t : Target) :
    Operation → Except Error (List (WriteKind × b.Statement))
  | create k p => do
    let s ← e.scope t
    let planned ← e.plan s k p
    .ok [(k.kind, planned.statement)]
  | createAll k ps => do
    let s ← e.scope t
    let planned ← e.planAll s k ps
    .ok (planned.map fun p => (k.kind, p.statement))
  | update p => do
    let s ← e.scope t
    let st ← e.planUpdate s p
    .ok [(.update, st)]
  | updateAll ps => do
    let s ← e.scope t
    let sts ← e.planUpdates s ps
    .ok (sts.map fun st => (.update, st))
  | updateWhere p q => do
    let s ← e.scope t
    let f ← e.filterOf s q
    let w ← e.planner.update s p f
    let st ← b.compileWrite s (.update w)
    .ok [(.update, st)]
  | deleteWhere q => do
    let s ← e.scope t
    let f ← e.filterOf s q
    let w ← Planner.delete s f
    let st ← b.compileWrite s (.delete w)
    .ok [(.delete, st)]
  | _ => .ok []

/-! ## Sending -/

/-- Sends statements one after the other, each of which may be refused before it is sent. -/
inductive Sends (a : Act) : List (Option Error) → List (Event d) → Except Error α → Prop
  | done (x : α) : Sends a [] [] (.ok x)
  | refused (err : Error) (qs : List (Option Error)) : Sends a (some err :: qs) [] (.error err)
  | failed (err : BackendError) (qs : List (Option Error)) :
      Sends a (none :: qs) [.call a false] (.error (.backend err))
  | sent {qs : List (Option Error)} {es : List (Event d)} {r : Except Error α} :
      Sends a qs es r → Sends a (none :: qs) (.call a true :: es) r

variable {a : Act} {qs qs' : List (Option Error)} {es es' : List (Event d)}

theorem Sends.after {x : α} {r : Except Error β} (h : Sends a qs es (.ok x : Except Error α))
    (h' : Sends a qs' es' r) : Sends a (qs ++ qs') (es ++ es') r := by
  generalize hr : (.ok x : Except Error α) = out at h
  induction h with
  | done y => exact h'
  | refused err qs => cases hr
  | failed err qs => cases hr
  | sent _ ih => exact .sent (ih hr)

theorem Sends.stopped {err : Error} (h : Sends a qs es (.error err : Except Error α)) :
    Sends a (qs ++ qs') es (.error err : Except Error β) := by
  generalize hr : (.error err : Except Error α) = out at h
  induction h with
  | done y => cases hr
  | refused err' qs =>
    cases hr
    exact .refused _ _
  | failed err' qs =>
    cases hr
    exact .failed _ _
  | sent _ ih => exact .sent (ih hr)

theorem Sends.chain {r : Except Error α} (h : Sends a qs es r) : Chain a es r := by
  induction h with
  | done y => exact .nil _
  | refused err qs => exact .nil _
  | failed err qs =>
    show Chain a ([] ++ [.call a false]) (.error (.backend err) : Except Error α)
    exact .failed nofun
  | sent _ ih =>
    have hfirst : Chain a [Event.call (d := d) a true] (.ok () : Except Error Unit) :=
      .answered fun ev hev => List.mem_singleton.mp hev
    exact hfirst.after ih

theorem emits_sendIf_sends {tx : Nat} {q : Except Error (Request I α)}
    (hq : ∀ r, q = .ok r → Writing act tx r) :
    Emits act (Request.sendIf q : Run d Error α) fun _ es r =>
      Sends (.run (.within tx)) [refusal? q] es r := by
  cases q with
  | error err =>
    refine (emits_fail err).mono fun w es r h => ?_
    obtain ⟨rfl, rfl⟩ := h
    exact .refused err []
  | ok q =>
    obtain ⟨ha, hread⟩ := hq q rfl
    refine (emits_send act q).mono fun w es r h => ?_
    rw [ha] at h
    obtain ⟨x, rfl, rfl⟩ | ⟨err, rfl, rfl⟩ := h
    · obtain ⟨y, hy⟩ := hread x
      rw [hy]
      exact .sent (.done y)
    · exact .failed err []

theorem emits_forAll_sends {f : β → Run d Error γ} {g : β → Option Error}
    (hf : ∀ x, Emits act (f x) fun _ es r => Sends a [g x] es r) (xs : List β) :
    Emits act (Run.forAll f xs) fun _ es r => Sends a (xs.map g) es r := by
  induction xs with
  | nil =>
    refine (emits_done []).mono fun w es r h => ?_
    obtain ⟨rfl, rfl⟩ := h
    exact .done []
  | cons x xs ih =>
    have hrest : ∀ y, Emits act (Run.forAll f xs >>= fun ys => Run.done (y :: ys))
        fun _ es r => Sends a (xs.map g) es r := fun y => by
      refine emits_bind ih (fun ys => emits_done (y :: ys)) ?_ fun w es err h => ?_
      · rintro w w₁ es ys es' r - h ⟨rfl, rfl⟩
        rw [← List.append_nil (xs.map g)]
        exact h.after (.done (y :: ys))
      · rw [← List.append_nil (xs.map g)]
        exact h.stopped
    exact emits_bind (hf x) hrest (fun w w₁ es y es' r _ h h' => h.after h')
      fun w es err h => h.stopped

/-! ## In a transaction -/

/-- Work in the transaction of a context, or in one of its own. -/
inductive Writes (act : Reading I) (e : Engine b) (c : Context) (work : Nat → Run d Error α)
    (account : Nat → List (Event d) → Except Error α → Prop) (w : History d) :
    List (Event d) → Except Error α → Prop
  | bound {tx : Nat} {es : List (Event d)} :
      Bound c e.id tx → account tx es (work tx w).1 →
      Writes act e c work account w es (work tx w).1
  | fresh {es : List (Event d)} {r : Except Error α} :
      ¬ Active c e.id →
      InNew act (b.begin e.handle) (fun _ err => err) work
        (fun tx w es => account tx es (work tx w).1) w es r →
      Writes act e c work account w es r

theorem Writes.mono {e : Engine b} {c : Context} {work : Nat → Run d Error α}
    {account account' : Nat → List (Event d) → Except Error α → Prop} {w : History d}
    {r : Except Error α} (h : Writes act e c work account w es r)
    (ha : ∀ tx es r, account tx es r → account' tx es r) : Writes act e c work account' w es r := by
  cases h with
  | bound htx h => exact .bound htx (ha _ _ _ h)
  | fresh hactive h =>
    refine .fresh hactive ?_
    cases h with
    | unopened h => exact .unopened h
    | committed hfront hpath h hr => exact .committed hfront hpath (ha _ _ _ h) hr
    | uncommitted hfront hpath h hr => exact .uncommitted hfront hpath (ha _ _ _ h) hr
    | undone hfront hpath h hr => exact .undone hfront hpath (ha _ _ _ h) hr

theorem txOf?_self (engine : Nat) (tx : Option Nat) : (⟨engine, tx⟩ : Context).txOf? engine = tx := by
  rw [Context.txOf?, if_pos (beq_self_eq_true engine)]

def withTx (e : Engine b) (f : Nat → Run d Error α) (c : Context) : Run d Error α :=
  match c.txOf? e.id with
  | some tx => f tx
  | none => Run.fail (.transaction .noActiveTransaction)

theorem writing_eq (e : Engine b) (c : Context) (f : Nat → Run d Error α) :
    e.writing c f = e.inTx (fun _ err => err) c .required (withTx e f) := rfl

theorem withTx_own (e : Engine b) (f : Nat → Run d Error α) (tx : Nat) :
    withTx e f ⟨e.id, some tx⟩ = f tx := by
  rw [withTx, txOf?_self]

variable {account : Nat → List (Event d) → Except Error α → Prop}

theorem emits_withTx (e : Engine b) {f : Nat → Run d Error α}
    (hf : ∀ tx, Emits act (f tx) fun _ es r => account tx es r) (c : Context) :
    Emits act (withTx e f c) fun w es _ =>
      ∀ tx, c.txOf? e.id = some tx → account tx es (f tx w).1 := by
  unfold withTx
  cases c.txOf? e.id with
  | none => exact (emits_fail _).mono fun w es r _ => nofun
  | some tx =>
    intro w
    obtain ⟨es, hpath, hes⟩ := hf tx w
    refine ⟨es, hpath, fun tx' htx' => ?_⟩
    cases htx'
    exact hes

theorem emits_writing (hb : Conduct b act) (e : Engine b) (c : Context)
    {f : Nat → Run d Error α} (hf : ∀ tx, Emits act (f tx) fun _ es r => account tx es r) :
    Emits act (e.writing c f) fun w es r => Writes act e c f account w es r := by
  have hwork : Emits act (e.inTx (fun _ err => err) c .required (withTx e f))
      (InTx act e (fun _ err => err) c .required (withTx e f) fun c w es =>
        ∀ tx, c.txOf? e.id = some tx → account tx es (f tx w).1) :=
    emits_inTx hb .required (emits_withTx e hf c) fun tx => emits_withTx e hf ⟨e.id, some tx⟩
  have hbound : ∀ {tx}, Bound c e.id tx → withTx e f c = f tx := fun h => by
    rw [withTx, txOf?_eq_some.mpr h]
  rw [writing_eq]
  refine hwork.mono fun w es r h => ?_
  cases h with
  | joined hactive _ _ hes =>
    obtain ⟨tx, htx⟩ := hactive
    rw [hbound htx]
    exact .bound htx (hes tx (txOf?_eq_some.mpr htx))
  | without _ hp _ => cases hp <;> contradiction
  | fresh hp h =>
    refine .fresh (hp.resolve_left nofun).1 ?_
    simp only [withTx_own, txOf?_self, Option.some.injEq, forall_eq'] at h
    exact h
  | refused hp => obtain ⟨_, hp, _⟩ | ⟨_, hp, _⟩ := hp <;> cases hp

/-! ## Every write -/

/-- A write fails in planning, or sends its statements and then fails if that fails. -/
inductive Attempts (act : Reading I) (e : Engine b) (c : Context)
    (statements : Except Error (List (WriteKind × b.Statement))) (w : History d) :
    List (Event d) → Except Error β → Prop
  | rejected {err : Error} :
      statements = .error err → Attempts act e c statements w [] (.error err)
  | attempted {α : Type} {sts : List (WriteKind × b.Statement)} {work : Nat → Run d Error α}
      {es : List (Event d)} {r : Except Error α} (f : α → Except Error β) :
      statements = .ok sts →
      Writes act e c work (fun tx => Sends (.run (.within tx)) (sts.map (b.refusal? tx))) w es r →
      Attempts act e c statements w es (r >>= f)

section
variable {e : Engine b} {c : Context} {t : Target}

theorem Attempts.bind {statements : Except Error (List (WriteKind × b.Statement))} {w : History d}
    {r : Except Error γ} (h : Attempts act e c statements w es r) (g : γ → Except Error β) :
    Attempts act e c statements w es (r >>= g) := by
  cases h with
  | rejected herr => exact .rejected herr
  | @attempted α sts work es r f hsts h =>
    rw [show (r >>= f) >>= g = r >>= fun a => f a >>= g from bind_assoc r f g]
    exact .attempted _ hsts h

theorem attempts_bind {statements : Except Error (List (WriteKind × b.Statement))}
    {m : Run d Error γ} {k : γ → Run d Error β} (g : γ → Except Error β)
    (hk : ∀ x, k x = Run.ofExcept (g x)) (hm : Emits act m (Attempts act e c statements)) :
    Emits act (m >>= k) (Attempts act e c statements) := by
  refine emits_bind hm (fun x => hk x ▸ emits_ofExcept (g x)) ?_ ?_
  · rintro w w₁ es x es' r - h ⟨rfl, rfl⟩
    rw [List.append_nil]
    exact h.bind g
  · exact fun w es err h => h.bind g

theorem attempts_planned {plan : Except Error γ} {m : γ → Run d Error β}
    {statements : Except Error (List (WriteKind × b.Statement))}
    {f : γ → List (WriteKind × b.Statement)} (hf : (plan >>= fun x => .ok (f x)) = statements)
    (hm : ∀ x, Emits act (m x) (Attempts act e c (.ok (f x)))) :
    Emits act (Run.ofExcept plan >>= m) (Attempts act e c statements) := by
  subst hf
  cases plan with
  | error err => exact fun w => ⟨[], .nil w, .rejected rfl⟩
  | ok x => exact hm x

theorem attempts_writing (hb : Conduct b act) {sts : List (WriteKind × b.Statement)}
    {f : Nat → Run d Error γ} (hf : ∀ tx, Emits act (f tx) fun _ es r =>
      Sends (.run (.within tx)) (sts.map (b.refusal? tx)) es r) :
    Emits act (e.writing c f) (Attempts act e c (.ok sts)) :=
  (emits_writing hb e c hf).mono fun w es r h => by
    rw [← bind_pure r]
    exact .attempted _ rfl h

end

theorem emits_execute (hb : Conduct b act) (k : Engine.Creation) (tx : Nat) (p : Engine.Planned b) :
    Emits act (Engine.execute k tx p : Run d Error (Option Value)) fun _ es r =>
      Sends (.run (.within tx)) [b.refusal? tx (k.kind, p.statement)] es r := by
  cases k with
  | insert => exact emits_sendIf_sends fun r hr => hb.insert hr
  | upsert => exact emits_sendIf_sends fun r hr => hb.upsert hr

theorem emits_executeUpdate (hb : Conduct b act) (tx : Nat) (st : b.Statement) :
    Emits act (Engine.executeUpdate tx st : Run d Error UInt64) fun _ es r =>
      Sends (.run (.within tx)) [b.refusal? tx (.update, st)] es r :=
  emits_sendIf_sends fun _ hr => hb.update hr

def Operation.reads : Operation → Bool
  | select _ => true
  | selectForeign _ => true
  | count _ => true
  | _ => false

theorem attempts_operation (hb : Conduct b act) (e : Engine b) (c : Context) (t : Target)
    {op : Operation} (hop : op.reads = false) :
    Emits act (op.run e c t : Run d Error Result) (Attempts act e c (op.statements e t)) := by
  cases op with
  | select q => cases hop
  | selectForeign q => cases hop
  | count q => cases hop
  | create k p =>
    refine attempts_bind (fun p => .ok (.payload p)) (fun p => rfl) ?_
    refine attempts_planned (f := fun x => [(k.kind, x.2.statement)]) ?_ fun (s, planned) => ?_
    · simp only [bind_assoc]
      rfl
    refine attempts_bind _ (fun key => rfl) (attempts_writing hb fun tx => ?_)
    exact emits_execute hb k tx planned
  | createAll k ps =>
    refine attempts_bind (fun ps => .ok (.payloads ps)) (fun ps => rfl) ?_
    refine attempts_planned (f := fun x => x.2.map fun p => (k.kind, p.statement)) ?_
      fun (s, planned) => ?_
    · simp only [bind_assoc]
      rfl
    refine attempts_bind _ (fun keys => rfl) (attempts_writing hb fun tx => ?_)
    rw [List.map_map]
    exact emits_forAll_sends (emits_execute hb k tx) planned
  | update p =>
    refine attempts_bind (fun n => .ok (.number n)) (fun n => rfl) ?_
    refine attempts_planned (f := fun st => [(.update, st)]) ?_ fun st => ?_
    · simp only [bind_assoc]
      rfl
    exact attempts_writing hb fun tx => emits_executeUpdate hb tx st
  | updateAll ps =>
    refine attempts_bind (fun n => .ok (.number n)) (fun n => rfl) ?_
    refine attempts_planned (f := fun sts => sts.map fun st => (.update, st)) ?_ fun sts => ?_
    · simp only [bind_assoc]
      rfl
    refine attempts_bind (fun counts => .ok (counts.foldl (· + ·) 0)) (fun counts => rfl)
      (attempts_writing hb fun tx => ?_)
    rw [List.map_map]
    exact emits_forAll_sends (emits_executeUpdate hb tx) sts
  | updateWhere p q =>
    refine attempts_bind (fun n => .ok (.number n)) (fun n => rfl) ?_
    refine attempts_planned (f := fun st => [(.update, st)]) ?_ fun st => ?_
    · simp only [bind_assoc]
      rfl
    exact attempts_writing hb fun tx => emits_executeUpdate hb tx st
  | deleteWhere q =>
    refine attempts_bind (fun n => .ok (.number n)) (fun n => rfl) ?_
    refine attempts_planned (f := fun st => [(.delete, st)]) ?_ fun st => ?_
    · simp only [bind_assoc]
      rfl
    exact attempts_writing hb fun tx => emits_sendIf_sends fun _ hr => hb.delete hr

end
end Polystore
