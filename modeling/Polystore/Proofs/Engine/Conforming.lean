import Polystore.Proofs.Engine.Attempts

/-! # Conduct of operations

Every operation plans first, and then reads or writes in the transaction of its context, if that is
the context of its engine and has one. Else a read connects by itself and a write is a unit of work
of its own. -/

namespace Polystore
set_option autoImplicit false

section
variable {I : Interface} {b : Backend I} {d : Driver I} {act : Reading I} {α β γ : Type}

inductive Reads (c : Context) (engine n : Nat) : List (Event d) → Except Error α → Prop
  | bound {tx : Nat} {es : List (Event d)} {r : Except Error α} :
      Bound c engine tx → Chain (.run (.within tx)) es r → Reads c engine n es r
  | unconnected {es : List (Event d)} {err : Error} :
      ¬ Active c engine → Connected es →
      Reads c engine n (es ++ [.call .connect false]) (.error err)
  | alone {front es : List (Event d)} {r : Except Error α} :
      ¬ Active c engine → Connected front → Chain (.run (.alone n)) es r →
      Reads c engine n (front ++ es) r

/-- An operation is rejected before it calls, or is one read or one write, and then fails if that
fails. -/
inductive Performs (act : Reading I) (e : Engine b) (c : Context) (reads : Bool) (w : History d) :
    List (Event d) → Except Error β → Prop
  | rejected (err : Error) : Performs act e c reads w [] (.error err)
  | reading {α : Type} {es : List (Event d)} {r : Except Error α} (f : α → Except Error β) :
      reads = true → Reads c e.id w.calls.length es r →
      Performs act e c reads w es (r >>= f)
  | writing {α : Type} {es : List (Event d)} {work : Nat → Run d Error α} {r : Except Error α}
      (f : α → Except Error β) :
      reads = false →
      Writes act e c work (fun tx => Chain (.run (.within tx))) w es r →
      Performs act e c reads w es (r >>= f)

/-! ## Reads -/

theorem emits_read (hb : Conduct b act) (h : Handle) (c : Context) (engine : Nat)
    {request : Place → Except Error (Request I α)}
    (hrequest : ∀ place q, request place = .ok q → ∀ p, act p q.call = .run place) :
    Emits act (b.read h (c.txOf? engine) request : Run d Error α) fun w es r =>
      Reads c engine w.calls.length es r := by
  cases htx : c.txOf? engine with
  | some tx =>
    exact (emits_sendIf (hrequest (.within tx))).mono fun w es r hes =>
      .bound (txOf?_eq_some.mp htx) hes
  | none =>
    have hactive := txOf?_eq_none.mp htx
    have hsend : ∀ n, Emits act
        (Request.sendAll (b.connecting h) >>= fun _ => Request.sendIf (request (.alone n)) :
          Run d Error α) fun _ es r => Reads c engine n es r := fun n => by
      refine emits_bind (emits_sendAll_connect (hb.connecting h))
        (fun _ => emits_sendIf (hrequest (.alone n))) ?_ ?_
      · rintro w w₁ es a es' r - (⟨hes, -, -⟩ | ⟨_, _, _, _, he⟩) hes'
        · exact .alone hactive hes hes'
        · cases he
      · rintro w es err (⟨_, _, he⟩ | ⟨front, _, hfront, rfl, -⟩)
        · cases he
        · exact .unconnected hactive hfront
    exact fun w => hsend w.calls.length w

section
variable {e : Engine b} {c : Context} {reads : Bool}

theorem performs_planned {plan : Except Error γ} {m : γ → Run d Error β}
    (hm : ∀ x, Emits act (m x) (Performs act e c reads)) :
    Emits act (Run.ofExcept plan >>= m) (Performs act e c reads) := by
  cases plan with
  | error err => exact fun w => ⟨[], .nil w, .rejected err⟩
  | ok x => exact hm x

theorem Performs.bind {w : History d} {es : List (Event d)} {r : Except Error γ}
    (h : Performs act e c reads w es r) (g : γ → Except Error β) :
    Performs act e c reads w es (r >>= g) := by
  cases h with
  | rejected err => exact .rejected err
  | @reading α _ r f hreads h =>
    rw [show (r >>= f) >>= g = r >>= fun a => f a >>= g from bind_assoc r f g]
    exact .reading _ hreads h
  | @writing α _ work r f hreads h =>
    rw [show (r >>= f) >>= g = r >>= fun a => f a >>= g from bind_assoc r f g]
    exact .writing _ hreads h

theorem performs_bind {m : Run d Error γ} {k : γ → Run d Error β} (g : γ → Except Error β)
    (hk : ∀ x, k x = Run.ofExcept (g x)) (hm : Emits act m (Performs act e c reads)) :
    Emits act (m >>= k) (Performs act e c reads) := by
  refine emits_bind hm (fun x => hk x ▸ emits_ofExcept (g x)) ?_ ?_
  · rintro w w₁ es x es' r - h ⟨rfl, rfl⟩
    rw [List.append_nil]
    exact h.bind g
  · exact fun w es err h => h.bind g

theorem performs_read {m : Run d Error γ}
    (hm : Emits act m fun w es r => Reads c e.id w.calls.length es r) :
    Emits act m (Performs act e c true) :=
  hm.mono fun w es r h => by
    rw [← bind_pure r]
    exact .reading _ rfl h

end

theorem performs_selectRows (hb : Conduct b act) (e : Engine b) (c : Context) (t : Target)
    (q : Query) :
    Emits act (e.selectRows c t q : Run d Error (Entity × List Row)) (Performs act e c true) := by
  refine performs_planned fun (s, st) => ?_
  refine performs_bind (fun rows => .ok (s.entity, rows)) (fun rows => rfl) (performs_read ?_)
  exact emits_read hb e.handle c e.id fun place r hr => hb.select hr

/-! ## Every operation -/

theorem Attempts.performs {e : Engine b} {c : Context}
    {statements : Except Error (List (WriteKind × b.Statement))} {w : History d}
    {es : List (Event d)} {r : Except Error β} (h : Attempts act e c statements w es r) :
    Performs act e c false w es r := by
  cases h with
  | rejected _ => exact .rejected _
  | attempted f _ h => exact .writing f rfl (h.mono fun tx es r h => h.chain)

theorem performs_operation (hb : Conduct b act) (e : Engine b) (c : Context) (t : Target)
    (op : Operation) :
    Emits act (op.run e c t : Run d Error Result) (Performs act e c op.reads) := by
  cases hop : op.reads with
  | false => exact (attempts_operation hb e c t hop).mono fun w es r h => h.performs
  | true =>
    cases op with
    | select q =>
      refine performs_bind (fun ds => .ok (.documents ds)) (fun ds => rfl) ?_
      refine performs_bind (fun x =>
        let fed := feed (fun ds r => (e.document x.1 r).map fun y => ds ++ [y]) [] x.2
        fed.2.map fun _ => fed.1) (fun (entity, rows) => ?_) (performs_selectRows hb e c t q)
      dsimp only
      generalize feed _ _ rows = fed
      obtain ⟨ds, _ | _⟩ := fed
      · rfl
      · rfl
    | selectForeign q =>
      refine performs_bind (fun _ => .ok (.documents [])) (fun _ => rfl) ?_
      exact performs_bind (fun x => (feed (fun () r => do
        let _ ← e.document x.1 r
        .error (.planning (.payloadType x.1.name))) () x.2).2) (fun _ => rfl)
        (performs_selectRows hb e c t q)
    | count q =>
      refine performs_bind (fun n => .ok (.number n)) (fun n => rfl) ?_
      refine performs_planned fun st => performs_read ?_
      exact emits_read hb e.handle c e.id fun place r hr => hb.count hr
    | create k p => cases hop
    | createAll k ps => cases hop
    | update p => cases hop
    | updateAll ps => cases hop
    | updateWhere p q => cases hop
    | deleteWhere q => cases hop

end
end Polystore
