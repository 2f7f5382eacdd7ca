import Polystore.Engine.Transaction

/-! # Traces of runs

What a run did to its driver: its calls in their order, read as acts on transactions, and whether
each of them was answered. A path is a run of the driver with exactly that trace. -/

namespace Polystore
set_option autoImplicit false

inductive Act where
  | connect
  | begin (tx : Nat)
  | commit (tx : Nat)
  | rollback (tx : Nat)
  | run (place : Place)
deriving DecidableEq, Repr

inductive Event {I : Interface} (d : Driver I) where
  | call (act : Act) (answered : Bool)
  /-- What others did to the store. -/
  | outside (change : d.State → d.State)

/-- How calls are read as acts, by the number of calls before. -/
abbrev Reading (I : Interface) := Nat → I.Call → Act

section
variable {I : Interface} {d : Driver I} {ε α β : Type}

inductive Path (act : Reading I) : History d → List (Event d) → History d → Prop
  | nil (w : History d) : Path act w [] w
  | call {w w' : History d} {es : List (Event d)} (c : I.Call) :
      Path act ⟨(d.answer w.state c).2, w.calls ++ [c]⟩ es w' →
      Path act w (.call (act w.calls.length c) (d.answer w.state c).1.isOk :: es) w'
  | outside {w w' : History d} {es : List (Event d)} (change : d.State → d.State) :
      Path act ⟨change w.state, w.calls⟩ es w' → Path act w (.outside change :: es) w'

variable {act : Reading I}

/-! ## Composition -/

theorem Path.append {w w₁ w₂ : History d} {es es' : List (Event d)} (h : Path act w es w₁)
    (h' : Path act w₁ es' w₂) : Path act w (es ++ es') w₂ := by
  induction h with
  | nil w => exact h'
  | call c _ ih => exact .call c (ih h')
  | outside change _ ih => exact .outside change (ih h')

def Event.isCall : Event d → Bool
  | .call .. => true
  | .outside _ => false

def callCount (es : List (Event d)) : Nat := es.countP Event.isCall

theorem callCount_append (es es' : List (Event d)) :
    callCount (es ++ es') = callCount es + callCount es' := List.countP_append

@[simp] theorem callCount_nil : callCount ([] : List (Event d)) = 0 := rfl

@[simp] theorem callCount_call (a : Act) (ok : Bool) (es : List (Event d)) :
    callCount (.call a ok :: es) = callCount es + 1 := List.countP_cons_of_pos rfl

@[simp] theorem callCount_outside (change : d.State → d.State) (es : List (Event d)) :
    callCount (.outside change :: es) = callCount es := List.countP_cons_of_neg Bool.false_ne_true

theorem Path.length_calls {w w' : History d} {es : List (Event d)} (h : Path act w es w') :
    w'.calls.length = w.calls.length + callCount es := by
  induction h with
  | nil w => rfl
  | call c _ ih =>
    rw [ih, callCount_call, List.length_append]
    simp only [List.length_cons, List.length_nil]
    omega
  | outside change _ ih => rw [ih, callCount_outside]

/-! ## What a run does -/

/-- From every history, the run has a trace which is, with the result, as stated. -/
def Emits (act : Reading I) (m : Run d ε α)
    (P : History d → List (Event d) → Except ε α → Prop) : Prop :=
  ∀ w, ∃ es, Path act w es (m w).2 ∧ P w es (m w).1

variable {m : Run d ε α} {P Q : History d → List (Event d) → Except ε α → Prop}

theorem Emits.mono (h : Emits act m P) (hPQ : ∀ w es r, P w es r → Q w es r) : Emits act m Q := by
  intro w
  obtain ⟨es, hpath, hes⟩ := h w
  exact ⟨es, hpath, hPQ w es _ hes⟩

theorem emits_ofExcept (r : Except ε α) :
    Emits act (Run.ofExcept r : Run d ε α) fun _ es r' => es = [] ∧ r' = r :=
  fun w => ⟨[], .nil w, rfl, rfl⟩

theorem emits_done (a : α) :
    Emits act (Run.done a : Run d ε α) fun _ es r => es = [] ∧ r = .ok a :=
  fun w => ⟨[], .nil w, rfl, rfl⟩

theorem emits_fail (e : ε) :
    Emits act (Run.fail e : Run d ε α) fun _ es r => es = [] ∧ r = .error e :=
  fun w => ⟨[], .nil w, rfl, rfl⟩

theorem emits_bind {f : α → Run d ε β} {Q : α → History d → List (Event d) → Except ε β → Prop}
    {R : History d → List (Event d) → Except ε β → Prop} (hm : Emits act m P)
    (hf : ∀ a, Emits act (f a) (Q a))
    (hok : ∀ w w₁ es a es' r, Path act w es w₁ → P w es (.ok a) → Q a w₁ es' r → R w (es ++ es') r)
    (herr : ∀ w es e, P w es (.error e) → R w es (.error e)) : Emits act (m >>= f) R := by
  intro w
  obtain ⟨es, hpath, hes⟩ := hm w
  cases hr : m w with
  | mk r w₁ =>
    rw [hr] at hpath hes
    have hbind : (m >>= f) w = Run.andThen m f w := rfl
    rw [Run.andThen, hr] at hbind
    cases r with
    | ok a =>
      obtain ⟨es', hpath', hes'⟩ := hf a w₁
      rw [hbind]
      exact ⟨es ++ es', hpath.append hpath', hok w w₁ es a es' _ hpath hes hes'⟩
    | error e =>
      rw [hbind]
      exact ⟨es, hpath, herr w es e hes⟩

/-! ## Acts of one kind -/

/-- Calls of one act one after the other, until one is not answered, which fails the whole. -/
inductive Chain (a : Act) : List (Event d) → Except ε α → Prop
  | answered {es : List (Event d)} {r : Except ε α} (h : ∀ ev ∈ es, ev = .call a true) : Chain a es r
  | failed {es : List (Event d)} {e : ε} (h : ∀ ev ∈ es, ev = .call a true) :
      Chain a (es ++ [.call a false]) (.error e)

variable {a : Act}

theorem Chain.nil (r : Except ε α) : Chain a ([] : List (Event d)) r := .answered nofun

theorem Chain.all_answered {es : List (Event d)} {x : α} (h : Chain a es (.ok x : Except ε α)) :
    ∀ ev ∈ es, ev = .call a true := by
  cases h with
  | answered h => exact h

theorem Chain.after {es es' : List (Event d)} {x : α} {r : Except ε β}
    (h : Chain a es (.ok x : Except ε α)) (h' : Chain a es' r) : Chain a (es ++ es') r := by
  have hes := h.all_answered
  cases h' with
  | answered h' => exact .answered (List.forall_mem_append.mpr ⟨hes, h'⟩)
  | failed h' =>
    rw [← List.append_assoc]
    exact .failed (List.forall_mem_append.mpr ⟨hes, h'⟩)

/-- A request is one call, and fails if that is not answered. -/
theorem emits_send (act : Reading I) (r : Request I α) :
    Emits act (r.send : Run d Error α) fun w es out =>
      (∃ x, es = [.call (act w.calls.length r.call) true] ∧ out = r.read x) ∨
      ∃ err, es = [.call (act w.calls.length r.call) false] ∧ out = .error (.backend err) := by
  intro w
  have hpath : Path act w [.call (act w.calls.length r.call) (d.answer w.state r.call).1.isOk]
      ⟨(d.answer w.state r.call).2, w.calls ++ [r.call]⟩ := .call r.call (.nil _)
  rw [Request.send]
  cases hx : d.answer w.state r.call with
  | mk x s =>
    rw [hx] at hpath
    cases x with
    | ok x => exact ⟨_, hpath, .inl ⟨x, rfl, rfl⟩⟩
    | error cause => exact ⟨_, hpath, .inr ⟨_, rfl, rfl⟩⟩

theorem emits_send_chain {r : Request I α} (ha : ∀ n, act n r.call = a) :
    Emits act (r.send : Run d Error α) fun _ es out => Chain a es out := by
  refine (emits_send act r).mono fun w es out h => ?_
  rw [ha] at h
  obtain ⟨x, rfl, -⟩ | ⟨e, rfl, rfl⟩ := h
  · exact .answered fun ev hev => List.mem_singleton.mp hev
  · show Chain a ([] ++ [.call a false]) (.error (.backend e) : Except Error α)
    exact .failed nofun

theorem emits_sendIf {r : Except Error (Request I α)} (ha : ∀ q, r = .ok q → ∀ n, act n q.call = a) :
    Emits act (Request.sendIf r : Run d Error α) fun _ es out => Chain a es out := by
  cases r with
  | ok q => exact emits_send_chain (ha q rfl)
  | error e => exact (emits_fail e).mono fun w es out h => h.1 ▸ .nil out

end
end Polystore
