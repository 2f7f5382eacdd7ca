import Polystore.Engine.Program
import Polystore.Proofs.Engine.Trace
import Polystore.Proofs.Outcome

/-! # Conduct of transactions

What an engine may do to its driver in an operation and in a unit of work, told on traces, for every
backend whose requests are the acts that they should be. -/

namespace Polystore
set_option autoImplicit false

/-! ## Backends -/

/-- A request that runs in a transaction and makes something of every answer. -/
def Writing {I : Interface} {α : Type} (act : Reading I) (tx : Nat) (r : Request I α) : Prop :=
  (∀ p, act p r.call = .run (.within tx)) ∧ ∀ x, ∃ a, r.read x = .ok a

/-- The requests of a backend are the acts that their names say. -/
structure Conduct {I : Interface} (b : Backend I) (act : Reading I) : Prop where
  /-- Some connecting comes before the call that begins the transaction. -/
  opening : ∀ h n, ∃ front last, b.opening h n = front ++ [last] ∧
    (∀ r ∈ front, ∀ p, act p r.call = .connect) ∧ act (n + front.length) last.call = .begin n ∧
    ∀ r ∈ front ++ [last], ∀ x, r.read x = .ok ()
  connecting : ∀ h, ∀ r ∈ b.connecting h, (∀ p, act p r.call = .connect) ∧ ∀ x, r.read x = .ok ()
  commit : ∀ n p, act p (b.commit n).call = .commit n
  committed : ∀ n x, (b.commit n).read x = .ok ()
  rollback : ∀ n p, act p (b.rollback n).call = .rollback n
  select : ∀ {v place st r}, b.select v place st = .ok r → ∀ p, act p r.call = .run place
  count : ∀ {place st r}, b.count place st = .ok r → ∀ p, act p r.call = .run place
  insert : ∀ {n st r}, b.insert n st = .ok r → Writing act n r
  upsert : ∀ {n st r}, b.upsert n st = .ok r → Writing act n r
  update : ∀ {n st r}, b.update n st = .ok r → Writing act n r
  delete : ∀ {n st r}, b.delete n st = .ok r → Writing act n r

section
variable {I : Interface} {b : Backend I} {d : Driver I} {act : Reading I} {ε α β : Type}

/-! ## Opening -/

def Connected (es : List (Event d)) : Prop := ∀ ev ∈ es, ev = .call .connect true

def Opened (a : Act) (es : List (Event d)) : Prop :=
  ∃ front, Connected front ∧ es = front ++ [.call a true]

/-- Connects and would make a call, but is not answered. -/
def Unopened (a : Act) (es : List (Event d)) : Prop :=
  ∃ front, Connected front ∧ (es = front ++ [.call .connect false] ∨ es = front ++ [.call a false])

theorem emits_sendAll_connect {rs : List (Request I Unit)}
    (hrs : ∀ r ∈ rs, (∀ p, act p r.call = .connect) ∧ ∀ x, r.read x = .ok ()) :
    Emits act (Request.sendAll rs : Run d Error Unit) fun _ es out =>
      (Connected es ∧ es.length = rs.length ∧ out = .ok ()) ∨
      ∃ front err, Connected front ∧ es = front ++ [.call .connect false] ∧
        out = .error (.backend err) := by
  induction rs with
  | nil => exact (emits_done ()).mono fun w es out h => .inl ⟨h.1 ▸ nofun, h.1 ▸ rfl, h.2⟩
  | cons r rs ih =>
    obtain ⟨hr, hread⟩ := hrs r List.mem_cons_self
    refine emits_bind (emits_send act r) (fun _ => ih fun q hq => hrs q (List.mem_cons_of_mem r hq))
      (fun w w₁ es a es' out hpath h h' => ?_) (fun w es e h => ?_)
    · rw [hr] at h
      obtain ⟨x, rfl, -⟩ | ⟨e, -, he⟩ := h
      · obtain ⟨hes, hlen, hout⟩ | ⟨front, e, hfront, rfl, hout⟩ := h'
        · exact .inl ⟨List.forall_mem_cons.mpr ⟨rfl, hes⟩, congrArg Nat.succ hlen, hout⟩
        · exact .inr ⟨_, e, List.forall_mem_cons.mpr ⟨rfl, hfront⟩, rfl, hout⟩
      · cases he
    · rw [hr] at h
      obtain ⟨x, -, hx⟩ | ⟨err, rfl, he⟩ := h
      · rw [hread x] at hx
        cases hx
      · exact .inr ⟨[], _, nofun, rfl, he⟩

theorem sendAll_append (rs rs' : List (Request I Unit)) :
    (Request.sendAll (rs ++ rs') : Run d Error Unit) =
      Request.sendAll rs >>= fun _ => Request.sendAll rs' := by
  induction rs with
  | nil => rfl
  | cons r rs ih =>
    funext w
    show Run.andThen r.send (fun _ => Request.sendAll (rs ++ rs')) w =
      Run.andThen (Run.andThen r.send fun _ => Request.sendAll rs)
        (fun _ => Request.sendAll rs') w
    rw [ih]
    simp only [Run.andThen]
    cases r.send w with
    | mk out w₁ =>
      cases out with
      | ok a => rfl
      | error e => rfl

theorem callCount_connected {es : List (Event d)} (h : Connected es) : callCount es = es.length :=
  List.countP_eq_length.mpr fun ev hev => h ev hev ▸ rfl

theorem emits_sendAll_concat {front : List (Request I Unit)} {last : Request I Unit}
    (hfront : ∀ r ∈ front, (∀ p, act p r.call = .connect) ∧ ∀ x, r.read x = .ok ())
    (hlast : ∀ x, last.read x = .ok ()) :
    Emits act (Request.sendAll (front ++ [last]) : Run d Error Unit) fun w es out =>
      (out = .ok () ∧ Opened (act (w.calls.length + front.length) last.call) es) ∨
      ∃ err, out = .error (.backend err) ∧
        Unopened (act (w.calls.length + front.length) last.call) es := by
  rw [sendAll_append]
  have hsend : Emits act (Request.sendAll [last] : Run d Error Unit) fun w es out =>
      (out = .ok () ∧ es = [.call (act w.calls.length last.call) true]) ∨
      ∃ err, out = .error (.backend err) ∧ es = [.call (act w.calls.length last.call) false] := by
    refine emits_bind (emits_send act last) (fun _ => emits_done ()) ?_ ?_
    · rintro w w₁ es a es' out - (⟨x, rfl, -⟩ | ⟨e, -, he⟩) ⟨rfl, rfl⟩
      · exact .inl ⟨rfl, rfl⟩
      · cases he
    · rintro w es e (⟨x, -, hx⟩ | ⟨err, rfl, he⟩)
      · rw [hlast x] at hx
        cases hx
      · exact .inr ⟨err, he, rfl⟩
  refine emits_bind (emits_sendAll_connect hfront) (fun _ => hsend) ?_ ?_
  · rintro w w₁ es a es' out hpath (⟨hes, hlen, -⟩ | ⟨_, _, _, _, he⟩) h'
    · have hcalls := hpath.length_calls
      rw [callCount_connected hes, hlen] at hcalls
      rw [hcalls] at h'
      obtain ⟨hout, rfl⟩ | ⟨e, hout, rfl⟩ := h'
      · exact .inl ⟨hout, es, hes, rfl⟩
      · exact .inr ⟨e, hout, es, hes, .inr rfl⟩
    · cases he
  · rintro w es e (⟨_, _, he⟩ | ⟨es', err, hes', rfl, he⟩)
    · cases he
    · exact .inr ⟨err, he, es', hes', .inl rfl⟩

/-- A transaction is opened under the number of the calls before it. -/
theorem emits_begin (hb : Conduct b act) (h : Handle) :
    Emits act (b.begin h : Run d Error Nat) fun w es out =>
      (out = .ok w.calls.length ∧ Opened (.begin w.calls.length) es) ∨
      ∃ err, out = .error (.backend err) ∧ Unopened (.begin w.calls.length) es := by
  intro w
  obtain ⟨front, last, hopening, hconnect, hlast, hread⟩ := hb.opening h w.calls.length
  have hfront : ∀ r ∈ front, (∀ p, act p r.call = .connect) ∧ ∀ x, r.read x = .ok () :=
    fun r hr => ⟨hconnect r hr, hread r (List.mem_append_left _ hr)⟩
  have hsend := emits_sendAll_concat (d := d) hfront
    (hread last (List.mem_append_right _ (List.mem_singleton.mpr rfl))) w
  have hbegin : (b.begin h : Run d Error Nat) w =
      Run.andThen (Request.sendAll (front ++ [last])) (fun _ => Run.done w.calls.length) w := by
    rw [← hopening]
    rfl
  obtain ⟨es, hpath, hes⟩ := hsend
  rw [hlast] at hes
  rw [hbegin, Run.andThen]
  cases hr : Request.sendAll (front ++ [last]) w with
  | mk r w₁ =>
    rw [hr] at hpath hes
    obtain ⟨rfl, hes⟩ | ⟨e, rfl, hes⟩ := hes
    · exact ⟨es, hpath, .inl ⟨rfl, hes⟩⟩
    · exact ⟨es, hpath, .inr ⟨e, rfl, hes⟩⟩

/-! ## Units of work -/

/-- Work in a transaction that it opens: it is finished by one call, a commit if the work came to a
value and a rollback if it failed, whose failure is then what is told. -/
inductive InNew (act : Reading I) (opening : Run d Error Nat) (raise : Option α → Error → ε)
    (work : Nat → Run d ε α) (account : Nat → History d → List (Event d) → Prop) (w : History d) :
    List (Event d) → Except ε α → Prop
  | unopened {es : List (Event d)} {err : BackendError} :
      Unopened (.begin w.calls.length) es →
      InNew act opening raise work account w es (.error (raise none (.backend err)))
  | committed {front es : List (Event d)} {a : α} :
      Opened (.begin w.calls.length) front → Path act w front (opening w).2 →
      account w.calls.length (opening w).2 es → (work w.calls.length (opening w).2).1 = .ok a →
      InNew act opening raise work account w
        (front ++ es ++ [.call (.commit w.calls.length) true]) (.ok a)
  | uncommitted {front es : List (Event d)} {a : α} {err : BackendError} :
      Opened (.begin w.calls.length) front → Path act w front (opening w).2 →
      account w.calls.length (opening w).2 es → (work w.calls.length (opening w).2).1 = .ok a →
      InNew act opening raise work account w
        (front ++ es ++ [.call (.commit w.calls.length) false])
        (.error (raise (some a) (.backend err)))
  | undone {front es : List (Event d)} {ok : Bool} {e : ε} :
      Opened (.begin w.calls.length) front → Path act w front (opening w).2 →
      account w.calls.length (opening w).2 es → (work w.calls.length (opening w).2).1 = .error e →
      InNew act opening raise work account w
        (front ++ es ++ [.call (.rollback w.calls.length) ok]) (.error e)

def Bound (c : Context) (engine tx : Nat) : Prop := c.owner = engine ∧ c.tx = some tx

def Active (c : Context) (engine : Nat) : Prop := ∃ tx, Bound c engine tx

theorem txOf?_eq_some {c : Context} {engine tx : Nat} :
    c.txOf? engine = some tx ↔ Bound c engine tx := by
  rw [Context.txOf?, Bound]
  by_cases h : c.owner = engine
  · rw [if_pos (beq_iff_eq.mpr h)]
    exact ⟨fun htx => ⟨h, htx⟩, fun htx => htx.2⟩
  · rw [if_neg fun hbeq => h (beq_iff_eq.mp hbeq)]
    exact ⟨nofun, fun htx => absurd htx.1 h⟩

theorem txOf?_eq_none {c : Context} {engine : Nat} : c.txOf? engine = none ↔ ¬ Active c engine := by
  rw [Active, Option.eq_none_iff_forall_ne_some, not_exists]
  exact forall_congr' fun tx => not_congr txOf?_eq_some

/-- Work under a propagation: in the transaction of its context, without one, in a transaction that
is opened for a context of its own, or not at all. -/
inductive InTx (act : Reading I) (e : Engine b) (raise : Option α → Error → ε) (c : Context)
    (p : Propagation) (work : Context → Run d ε α)
    (account : Context → History d → List (Event d) → Prop) (w : History d) :
    List (Event d) → Except ε α → Prop
  | joined {es : List (Event d)} :
      Active c e.id → p ≠ .requiresNew → p ≠ .never → account c w es →
      InTx act e raise c p work account w es (work c w).1
  | without {es : List (Event d)} :
      ¬ Active c e.id → p = .supports ∨ p = .never → account c w es →
      InTx act e raise c p work account w es (work c w).1
  | fresh {es : List (Event d)} {r : Except ε α} :
      p = .requiresNew ∨ ¬ Active c e.id ∧ (p = .required ∨ p = .nested) →
      InNew act (b.begin e.handle) raise (fun tx => work ⟨e.id, some tx⟩)
        (fun tx => account ⟨e.id, some tx⟩) w es r →
      InTx act e raise c p work account w es r
  | refused {why : TransactionError} :
      Active c e.id ∧ p = .never ∧ why = .activeTransaction ∨
        ¬ Active c e.id ∧ p = .mandatory ∧ why = .noActiveTransaction →
      InTx act e raise c p work account w [] (.error (raise none (.transaction why)))

variable {e : Engine b} {raise : Option α → Error → ε} {work : Context → Run d ε α}
  {account : Context → History d → List (Event d) → Prop}

theorem emits_inNew (hb : Conduct b act)
    (hwork : ∀ tx, Emits act (work ⟨e.id, some tx⟩) fun w es _ => account ⟨e.id, some tx⟩ w es) :
    Emits act (e.inNew raise work) (InNew act (b.begin e.handle) raise
      (fun tx => work ⟨e.id, some tx⟩) fun tx => account ⟨e.id, some tx⟩) := by
  intro w
  obtain ⟨front, hpath, hfront⟩ := emits_begin (d := d) hb e.handle w
  rw [Engine.inNew]
  obtain ⟨hbegin, hfront⟩ | ⟨err, hbegin, hfront⟩ := hfront
  · obtain ⟨es, hpath₁, hes⟩ := hwork w.calls.length (b.begin e.handle w).2
    rw [show b.begin e.handle w = (.ok w.calls.length, (b.begin e.handle w).2) from
      Prod.ext hbegin rfl]
    cases hdone : work ⟨e.id, some w.calls.length⟩ (b.begin e.handle w).2 with
    | mk r₁ w₂ =>
      -- What the work came to decides how it is finished.
      have hr₁ := congrArg Prod.fst hdone
      rw [hdone] at hpath₁
      have hthrough := hpath.append hpath₁
      cases r₁ with
      | ok a =>
        obtain ⟨es', hpath₂, hes'⟩ := emits_send (d := d) act (b.commit w.calls.length) w₂
        rw [hb.commit] at hes'
        cases hcommit : (b.commit w.calls.length).send w₂ with
        | mk r₂ w₃ =>
          rw [hcommit] at hpath₂ hes'
          obtain ⟨x, rfl, hx⟩ | ⟨err, rfl, herr⟩ := hes'
          · rw [hb.committed] at hx
            cases hx
            simp only [hdone, hcommit]
            exact ⟨_, hthrough.append hpath₂, .committed hfront hpath hes hr₁⟩
          · cases herr
            simp only [hdone, hcommit]
            exact ⟨_, hthrough.append hpath₂, .uncommitted hfront hpath hes hr₁⟩
      | error err =>
        obtain ⟨es', hpath₂, hes'⟩ := emits_send (d := d) act (b.rollback w.calls.length) w₂
        rw [hb.rollback] at hes'
        simp only [hdone]
        obtain ⟨x, rfl, -⟩ | ⟨_, rfl, -⟩ := hes'
        · exact ⟨_, hthrough.append hpath₂, .undone hfront hpath hes hr₁⟩
        · exact ⟨_, hthrough.append hpath₂, .undone hfront hpath hes hr₁⟩
  · rw [show b.begin e.handle w = (.error (.backend err), (b.begin e.handle w).2) from
      Prod.ext hbegin rfl]
    exact ⟨front, hpath, .unopened hfront⟩

theorem emits_inTx (hb : Conduct b act) {c : Context} (p : Propagation)
    (hc : Emits act (work c) fun w es _ => account c w es)
    (hnew : ∀ tx, Emits act (work ⟨e.id, some tx⟩) fun w es _ => account ⟨e.id, some tx⟩ w es) :
    Emits act (e.inTx raise c p work) (InTx act e raise c p work account) := by
  intro w
  obtain ⟨es, hpath, hes⟩ := hc w
  have hown : Emits act (e.inNew raise work) (InNew act (b.begin e.handle) raise
      (fun tx => work ⟨e.id, some tx⟩) fun tx => account ⟨e.id, some tx⟩) := emits_inNew hb hnew
  obtain ⟨es', hpath', hes'⟩ := hown w
  unfold Engine.inTx
  cases htx : c.txOf? e.id with
  | some tx =>
    have hactive : Active c e.id := ⟨tx, txOf?_eq_some.mp htx⟩
    cases p with
    | requiresNew => exact ⟨es', hpath', .fresh (.inl rfl) hes'⟩
    | never => exact ⟨[], .nil w, .refused (.inl ⟨hactive, rfl, rfl⟩)⟩
    | required => exact ⟨es, hpath, .joined hactive nofun nofun hes⟩
    | supports => exact ⟨es, hpath, .joined hactive nofun nofun hes⟩
    | mandatory => exact ⟨es, hpath, .joined hactive nofun nofun hes⟩
    | nested => exact ⟨es, hpath, .joined hactive nofun nofun hes⟩
  | none =>
    have hactive := txOf?_eq_none.mp htx
    cases p with
    | requiresNew => exact ⟨es', hpath', .fresh (.inl rfl) hes'⟩
    | never => exact ⟨es, hpath, .without hactive (.inr rfl) hes⟩
    | required => exact ⟨es', hpath', .fresh (.inr ⟨hactive, .inl rfl⟩) hes'⟩
    | supports => exact ⟨es, hpath, .without hactive (.inl rfl) hes⟩
    | mandatory => exact ⟨[], .nil w, .refused (.inr ⟨hactive, rfl, rfl⟩)⟩
    | nested => exact ⟨es', hpath', .fresh (.inr ⟨hactive, .inr rfl⟩) hes'⟩

end
end Polystore
