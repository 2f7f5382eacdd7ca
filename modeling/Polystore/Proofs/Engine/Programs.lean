import Polystore.Proofs.Engine.Conforming

/-! # Programs of operations

All that a user can do with engines: operations and units of work in the contexts at hand, in an
order that may depend on what came of those before. A unit has one context more, and what follows
it has the contexts from before it. -/

namespace Polystore
set_option autoImplicit false

/-- A program over some engines with a number of contexts at hand, the last one first. -/
inductive Program {I : Interface} {ι : Type} (store : ι → Backend I) (d : Driver I) :
    Nat → Type → Type → Type 1
  | finish {k : Nat} {ε α : Type} (r : Except ε α) : Program store d k ε α
  | operation {k : Nat} {ε α : Type} (i : Fin k) (j : ι) (e : Engine (store j)) (t : Target)
      (op : Operation) (next : Except Error Result → Program store d k ε α) :
      Program store d k ε α
  /-- What others do to the store. -/
  | outside {k : Nat} {ε α : Type} (change : d.State → d.State) (next : Program store d k ε α) :
      Program store d k ε α
  /-- A context without a transaction. -/
  | context {k : Nat} {ε α : Type} (j : ι) (e : Engine (store j))
      (next : Program store d (k + 1) ε α) : Program store d k ε α
  /-- The owner of a context, and whether it has a transaction. -/
  | look {k : Nat} {ε α : Type} (i : Fin k) (next : Nat → Bool → Program store d k ε α) :
      Program store d k ε α
  | unit {k : Nat} {ε α ε' α' : Type} (i : Fin k) (j : ι) (e : Engine (store j))
      (p : Propagation) (raise : Option α' → Error → ε') (body : Program store d (k + 1) ε' α')
      (next : Except ε' α' → Program store d k ε α) : Program store d k ε α

def withContext {k : Nat} (c : Context) (env : Fin k → Context) : Fin (k + 1) → Context :=
  Fin.cases c env

section
variable {I : Interface} {ι : Type} {store : ι → Backend I} {d : Driver I} {act : Reading I}
  {k : Nat} {ε α : Type}

namespace Program

def run {k : Nat} {ε α : Type} : Program store d k ε α → (Fin k → Context) → Run d ε α
  | finish r, _ => Run.ofExcept r
  | operation i _ e t op next, env => fun w =>
    let o := op.run e (env i) t w
    (next o.1).run env o.2
  | outside change next, env => fun w => next.run env ⟨change w.state, w.calls⟩
  | context _ e next, env => next.run (withContext e.context env)
  | look i next, env => (next (env i).owner (env i).tx.isSome).run env
  | unit i _ e p raise body next, env => fun w =>
    let o := e.inTx raise (env i) p (fun c => body.run (withContext c env)) w
    (next o.1).run env o.2

/-! ## Traces of programs -/

/-- The trace of a part that came to `o`, and then that of what follows it. -/
def Then (act : Reading I) (w : History d) (o : Except ε α × History d)
    (part : List (Event d) → Except ε α → Prop)
    (rest : Except ε α → History d → List (Event d) → Prop) (es : List (Event d)) : Prop :=
  ∃ front back, es = front ++ back ∧ Path act w front o.2 ∧ part front o.1 ∧ rest o.1 o.2 back

/-- What a program may do: each operation and each unit as its context says, in their order. -/
def Traced (act : Reading I) {k : Nat} {ε α : Type} :
    Program store d k ε α → (Fin k → Context) → History d → List (Event d) → Prop
  | finish _, _, _, es => es = []
  | operation i _ e t op next, env, w, es =>
    Then act w (op.run e (env i) t w) (Performs act e (env i) op.reads w)
      (fun r w => (next r).Traced act env w) es
  | outside change next, env, w, es =>
    ∃ back, es = .outside change :: back ∧ next.Traced act env ⟨change w.state, w.calls⟩ back
  | context _ e next, env, w, es => next.Traced act (withContext e.context env) w es
  | look i next, env, w, es => (next (env i).owner (env i).tx.isSome).Traced act env w es
  | unit i _ e p raise body next, env, w, es =>
    Then act w (e.inTx raise (env i) p (fun c => body.run (withContext c env)) w)
      (InTx act e raise (env i) p (fun c => body.run (withContext c env))
        (fun c => body.Traced act (withContext c env)) w)
      (fun r w => (next r).Traced act env w) es

theorem emits_then {ε' α' : Type} {m : Run d ε' α'}
    {P : History d → List (Event d) → Except ε' α' → Prop} {next : Except ε' α' → Run d ε α}
    {rest : Except ε' α' → History d → List (Event d) → Prop} (hm : Emits act m P)
    (hnext : ∀ r, Emits act (next r) fun w es _ => rest r w es) :
    Emits act (fun w => next (m w).1 (m w).2) fun w es _ => Then act w (m w) (P w) rest es := by
  intro w
  obtain ⟨front, hpath, hfront⟩ := hm w
  obtain ⟨back, hpath', hback⟩ := hnext (m w).1 (m w).2
  exact ⟨front ++ back, hpath.append hpath', front, back, rfl, hpath, hfront, hback⟩

/-- Every program has such a trace from every history of every driver. -/
theorem emits_run (hstore : ∀ j, Conduct (store j) act) (p : Program store d k ε α)
    (env : Fin k → Context) : Emits act (p.run env) fun w es _ => p.Traced act env w es := by
  induction p with
  | finish r => exact (emits_ofExcept r).mono fun w es out h => h.1
  | operation i j e t op next ih =>
    exact emits_then (performs_operation (hstore j) e (env i) t op) fun r => ih r env
  | outside change next ih =>
    intro w
    obtain ⟨back, hpath, hback⟩ := ih env ⟨change w.state, w.calls⟩
    exact ⟨_, .outside change hpath, back, rfl, hback⟩
  | context j e next ih => exact ih (withContext e.context env)
  | look i next ih => exact ih _ _ env
  | unit i j e p raise body next ihbody ihnext =>
    -- The body is traced in the context at hand and in any new one: the propagation decides.
    refine emits_then ?_ fun r => ihnext r env
    exact emits_inTx (hstore j) p (ihbody (withContext (env i) env))
      fun tx => ihbody (withContext ⟨e.id, some tx⟩ env)

end Program
end

/-! ## Steps are programs -/

section
variable {I : Interface} {ι : Type} {store : ι → Backend I} {d : Driver I} {j : ι}

namespace Step

mutual
def program {k : Nat} {ε α : Type} (i : Fin k) (next : Except Error Result → Program store d k ε α) :
    Step (store j) d → Program store d k ε α
  | operation e t op => .operation i j e t op next
  | outside change => .outside change (next (.ok .done))
  | context e => .look i fun owner active => next (.ok (.context active (owner == e.id)))
  | known err => next (.ok (.failed err))
  | caught s => s.program i fun r => next (.ok (match r with
    | .ok r => r
    | .error e => .failed e))
  | unit e p steps failure reported =>
    .unit i j e p (fun rs err => (rs.getD [], err)) (programAll 0 [] failure steps) fun r =>
      next (match r with
        | .ok rs => .ok (.unit rs)
        | .error (rs, e) => broken reported rs e)
def programAll {k : Nat} (i : Fin k) (rs : List Result) (failure : Option Error) :
    List (Step (store j) d) → Program store d k (List Result × Error) (List Result)
  | [] => .finish (match failure with
    | none => .ok rs
    | some e => .error (rs, e))
  | s :: ss => s.program i fun
    | .ok r => programAll i (rs ++ [r]) failure ss
    | .error e => .finish (.error (rs, e))
end

mutual
theorem run_program {k : Nat} {ε α : Type} (i : Fin k)
    (next : Except Error Result → Program store d k ε α) (env : Fin k → Context) (w : History d) :
    ∀ s : Step (store j) d, (s.program i next).run env w =
      (next (s.run (env i) w).1).run env (s.run (env i) w).2
  | operation e t op => rfl
  | outside change => rfl
  | context e => rfl
  | known err => rfl
  | caught s => by
    rw [program, run_program i _ env w s, run, catching]
    cases s.run (env i) w with
    | mk r w' => cases r <;> rfl
  | unit e p steps failure reported => by
    -- Index 0 of the body is the context that the unit gives to its steps.
    have hbody : (fun c => (programAll 0 [] failure steps :
        Program store d (k + 1) (List Result × Error) (List Result)).run (withContext c env)) =
          fun c => runAll c [] failure steps :=
      funext fun c => funext fun w => run_programAll 0 [] failure (withContext c env) w steps
    rw [program, run, conclude, Program.run, hbody]
    dsimp only
    generalize e.inTx _ (env i) p _ w = o
    obtain ⟨⟨rs, err⟩ | rs, w'⟩ := o
    · rfl
    · rfl
theorem run_programAll {k : Nat} (i : Fin k) (rs : List Result) (failure : Option Error)
    (env : Fin k → Context) (w : History d) : ∀ ss : List (Step (store j) d),
    (programAll i rs failure ss).run env w = runAll (env i) rs failure ss w
  | [] => by
    cases failure <;> rfl
  | s :: ss => by
    rw [programAll, run_program i _ env w s]
    show _ = match s.run (env i) w with
      | (.ok r, w) => runAll (env i) (rs ++ [r]) failure ss w
      | (.error e, w) => (.error (rs, e), w)
    cases s.run (env i) w with
    | mk r w' =>
      cases r with
      | ok r => exact run_programAll i (rs ++ [r]) failure env w' ss
      | error e => rfl
end

end Step
end
end Polystore
