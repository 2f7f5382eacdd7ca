import Polystore.Proofs.Engine.Programs

/-! # Nesting of transactions

The open transactions are a stack: a finish takes the one that was begun last, a statement runs in
one that is open, and in the end the stack is as before. Each transaction that was begun is finished
once. -/

namespace Polystore
set_option autoImplicit false

section
variable {I : Interface} {d : Driver I}

/-! ## Open transactions -/

def popped (tx : Nat) : List Nat → Option (List Nat)
  | top :: stack => if tx = top then some stack else none
  | [] => none

/-- The open transactions after an event. -/
def settled (stack : List Nat) : Event d → Option (List Nat)
  | .call (.begin tx) true => some (tx :: stack)
  | .call (.commit tx) _ => popped tx stack
  | .call (.rollback tx) _ => popped tx stack
  | .call (.run (.within tx)) _ => if tx ∈ stack then some stack else none
  | _ => some stack

def begun? : Event d → Option Nat
  | .call (.begin tx) true => some tx
  | _ => none

/-- A finish is one also if it is not answered. -/
def finished? : Event d → Option Nat
  | .call (.commit tx) _ => some tx
  | .call (.rollback tx) _ => some tx
  | _ => none

def begun (es : List (Event d)) : List Nat := es.filterMap begun?

def finished (es : List (Event d)) : List Nat := es.filterMap finished?

/-- Events over open transactions, which begin transactions of some numbers. -/
structure Orderly (stack : List Nat) (lo hi : Nat) (es : List (Event d)) : Prop where
  nested : es.foldlM settled stack = some stack
  numbered : ∀ tx ∈ begun es, lo ≤ tx ∧ tx < hi
  distinct : (begun es).Nodup
  once : (finished es).Perm (begun es)

variable {stack : List Nat} {lo mid hi : Nat} {es es' : List (Event d)}

theorem Orderly.append (h : Orderly stack lo mid es) (h' : Orderly stack mid hi es')
    (hlo : lo ≤ mid) (hhi : mid ≤ hi) : Orderly stack lo hi (es ++ es') where
  nested := by
    rw [List.foldlM_append, h.nested]
    exact h'.nested
  numbered := by
    intro tx htx
    rw [begun, List.filterMap_append] at htx
    rcases List.mem_append.mp htx with htx | htx
    · have := h.numbered tx htx
      omega
    · have := h'.numbered tx htx
      omega
  distinct := by
    rw [begun, List.filterMap_append]
    refine List.nodup_append.mpr ⟨h.distinct, h'.distinct, fun tx htx tx' htx' => ?_⟩
    have := h.numbered tx htx
    have := h'.numbered tx' htx'
    omega
  once := by
    rw [begun, finished, List.filterMap_append, List.filterMap_append]
    exact h.once.append h'.once

theorem Orderly.mono {hi' : Nat} (h : Orderly stack lo hi es) (hhi : hi ≤ hi') :
    Orderly stack lo hi' es :=
  ⟨h.nested, fun tx htx => (h.numbered tx htx).imp id fun hlt => Nat.lt_of_lt_of_le hlt hhi,
    h.distinct, h.once⟩

/-- An event that neither begins nor finishes a transaction, in an open one if in one. -/
structure Quiet (stack : List Nat) (ev : Event d) : Prop where
  settled : settled stack ev = some stack
  begun : begun? ev = none
  finished : finished? ev = none

theorem Orderly.quiet (h : ∀ ev ∈ es, Quiet stack ev) : Orderly stack lo hi es := by
  have hbegun : begun es = [] := List.filterMap_eq_nil_iff.mpr fun ev hev => (h ev hev).begun
  have hfinished : finished es = [] :=
    List.filterMap_eq_nil_iff.mpr fun ev hev => (h ev hev).finished
  refine ⟨?_, by rw [hbegun]; nofun, hbegun ▸ List.nodup_nil, by rw [hbegun, hfinished]⟩
  clear hbegun hfinished
  induction es with
  | nil => rfl
  | cons ev es ih =>
    rw [List.foldlM_cons, (h ev List.mem_cons_self).settled]
    exact ih fun ev' hev' => h ev' (List.mem_cons_of_mem ev hev')

theorem quiet_connect (ok : Bool) : Quiet stack (.call .connect ok : Event d) := ⟨rfl, rfl, rfl⟩

theorem quiet_alone (n : Nat) (ok : Bool) : Quiet stack (.call (.run (.alone n)) ok : Event d) :=
  ⟨rfl, rfl, rfl⟩

theorem quiet_within {tx : Nat} (h : tx ∈ stack) (ok : Bool) :
    Quiet stack (.call (.run (.within tx)) ok : Event d) := ⟨if_pos h, rfl, rfl⟩

theorem quiet_unbegun (tx : Nat) : Quiet stack (.call (.begin tx) false : Event d) := ⟨rfl, rfl, rfl⟩

theorem quiet_outside (change : d.State → d.State) : Quiet stack (.outside change : Event d) :=
  ⟨rfl, rfl, rfl⟩

theorem Connected.quiet (h : Connected es) : ∀ ev ∈ es, Quiet stack ev :=
  fun ev hev => h ev hev ▸ quiet_connect true

theorem Chain.quiet {ε α : Type} {a : Act} {r : Except ε α} (h : Chain a es r)
    (ha : ∀ ok, Quiet stack (.call a ok : Event d)) : ∀ ev ∈ es, Quiet stack ev := by
  cases h with
  | answered h => exact fun ev hev => h ev hev ▸ ha true
  | failed h =>
    refine List.forall_mem_append.mpr ⟨fun ev hev => h ev hev ▸ ha true, ?_⟩
    exact List.forall_mem_singleton.mpr (ha false)

theorem Unopened.quiet {tx : Nat} (h : Unopened (.begin tx) es) : ∀ ev ∈ es, Quiet stack ev := by
  obtain ⟨front, hfront, rfl | rfl⟩ := h
  · refine List.forall_mem_append.mpr ⟨hfront.quiet, ?_⟩
    exact List.forall_mem_singleton.mpr (quiet_connect false)
  · refine List.forall_mem_append.mpr ⟨hfront.quiet, ?_⟩
    exact List.forall_mem_singleton.mpr (quiet_unbegun tx)

/-! ## A new transaction -/

def Finishes (tx : Nat) (ev : Event d) : Prop :=
  ∃ ok, ev = .call (.commit tx) ok ∨ ev = .call (.rollback tx) ok

theorem Finishes.settled {tx : Nat} {ev : Event d} (h : Finishes tx ev) :
    settled (tx :: stack) ev = some stack ∧ begun? ev = none ∧ finished? ev = some tx := by
  obtain ⟨ok, rfl | rfl⟩ := h
  · exact ⟨if_pos rfl, rfl, rfl⟩
  · exact ⟨if_pos rfl, rfl, rfl⟩

/-- What is orderly within a new transaction is so together with its begin and its finish. -/
theorem Orderly.enclosed {tx : Nat} {finish : Event d} (h : Orderly (tx :: stack) lo hi es)
    (hlo : tx < lo) (hhi : tx < hi) (hfinish : Finishes tx finish) :
    Orderly stack tx hi (.call (.begin tx) true :: (es ++ [finish])) := by
  obtain ⟨hsettled, hbegun, hfinished⟩ : settled (tx :: stack) finish = some stack ∧
    begun? finish = none ∧ finished? finish = some tx := hfinish.settled
  have hbegunAll : begun (.call (.begin tx) true :: (es ++ [finish])) = tx :: begun es := by
    show tx :: (es ++ [finish]).filterMap begun? = tx :: begun es
    rw [List.filterMap_append, List.filterMap_cons_none hbegun, List.filterMap_nil,
      List.append_nil]
    rfl
  have hfinishedAll : finished (.call (.begin tx) true :: (es ++ [finish])) = finished es ++ [tx] := by
    show (es ++ [finish]).filterMap finished? = finished es ++ [tx]
    rw [List.filterMap_append, List.filterMap_cons_some hfinished, List.filterMap_nil]
    rfl
  refine ⟨?_, ?_, ?_, ?_⟩
  · rw [List.foldlM_cons]
    show (es ++ [finish]).foldlM Polystore.settled (tx :: stack) = some stack
    rw [List.foldlM_append, h.nested]
    show (Polystore.settled (tx :: stack) finish >>= fun s => some s) = some stack
    rw [hsettled]
    rfl
  · rw [hbegunAll]
    intro tx' htx'
    rcases List.mem_cons.mp htx' with rfl | htx'
    · exact ⟨Nat.le_refl _, hhi⟩
    · have := h.numbered tx' htx'
      omega
  · rw [hbegunAll]
    refine List.nodup_cons.mpr ⟨fun hmem => ?_, h.distinct⟩
    have := h.numbered tx hmem
    omega
  · rw [hbegunAll, hfinishedAll]
    exact (List.perm_append_singleton tx _).trans (h.once.cons tx)

/-! ## Programs -/

variable {ι : Type} {store : ι → Backend I} {b : Backend I} {act : Reading I} {ε α : Type}
  {w : History d} {r : Except ε α}

/-- The transactions that a trace begins have the numbers of its calls. -/
def OrderlyFrom (stack : List Nat) (w : History d) (es : List (Event d)) : Prop :=
  Orderly stack w.calls.length (w.calls.length + callCount es) es

theorem OrderlyFrom.followed {w₁ : History d} (h : OrderlyFrom stack w es) (hpath : Path act w es w₁)
    (h' : OrderlyFrom stack w₁ es') : OrderlyFrom stack w (es ++ es') := by
  have hcalls := hpath.length_calls
  rw [OrderlyFrom, callCount_append, ← Nat.add_assoc, ← hcalls]
  rw [OrderlyFrom, ← hcalls] at h
  exact Orderly.append h h' (hcalls ▸ Nat.le_add_right _ _) (Nat.le_add_right _ _)

theorem InNew.orderlyFrom {opening : Run d Error Nat} {raise : Option α → Error → ε}
    {work : Nat → Run d ε α} {account : Nat → History d → List (Event d) → Prop}
    (h : InNew act opening raise work account w es r)
    (haccount : ∀ tx w es, account tx w es → OrderlyFrom (tx :: stack) w es) :
    OrderlyFrom stack w es := by
  have enclosed : ∀ {front es : List (Event d)} {finish : Act} {ok : Bool},
      Opened (.begin w.calls.length) front → Path act w front (opening w).2 →
      account w.calls.length (opening w).2 es → Finishes (d := d) w.calls.length (.call finish ok) →
      OrderlyFrom stack w (front ++ es ++ [.call finish ok]) := by
    -- The transaction has the number of the calls before it; those of the body are higher.
    rintro front es finish ok ⟨front', hconnected, rfl⟩ hpath hes hfinish
    have hcalls := hpath.length_calls
    have hbody := haccount _ _ _ hes
    rw [callCount_append, callCount_call, callCount_nil] at hcalls
    rw [OrderlyFrom] at hbody
    rw [OrderlyFrom, callCount_append, callCount_append, callCount_append, callCount_call,
      callCount_call, callCount_nil, List.append_assoc, List.append_assoc]
    have hquiet : Orderly stack w.calls.length w.calls.length front' := .quiet hconnected.quiet
    refine hquiet.append ((hbody.enclosed ?_ ?_ hfinish).mono ?_) (Nat.le_refl _)
      (Nat.le_add_right _ _)
    · omega
    · omega
    · omega
  cases h with
  | unopened h => exact .quiet h.quiet
  | committed hfront hpath hes _ => exact enclosed hfront hpath hes ⟨true, .inl rfl⟩
  | uncommitted hfront hpath hes _ => exact enclosed hfront hpath hes ⟨false, .inl rfl⟩
  | undone hfront hpath hes _ => exact enclosed hfront hpath hes ⟨_, .inr rfl⟩

theorem Reads.quiet {c : Context} {engine n : Nat} {r : Except Error α} (h : Reads c engine n es r)
    (hc : ∀ tx, c.tx = some tx → tx ∈ stack) : ∀ ev ∈ es, Quiet stack ev := by
  cases h with
  | bound htx h => exact h.quiet (quiet_within (hc _ htx.2))
  | unconnected _ h =>
    refine List.forall_mem_append.mpr ⟨h.quiet, ?_⟩
    exact List.forall_mem_singleton.mpr (quiet_connect false)
  | alone _ hfront h =>
    exact List.forall_mem_append.mpr ⟨hfront.quiet, h.quiet (quiet_alone n)⟩

theorem Writes.orderlyFrom {e : Engine b} {c : Context} {work : Nat → Run d Error α}
    {r : Except Error α} (h : Writes act e c work (fun tx => Chain (.run (.within tx))) w es r)
    (hc : ∀ tx, c.tx = some tx → tx ∈ stack) : OrderlyFrom stack w es := by
  cases h with
  | bound htx h => exact .quiet (h.quiet (quiet_within (hc _ htx.2)))
  | fresh _ h =>
    exact h.orderlyFrom fun tx w es h => .quiet (h.quiet (quiet_within List.mem_cons_self))

theorem Performs.orderlyFrom {e : Engine b} {c : Context} {reads : Bool} {r : Except Error α}
    (h : Performs act e c reads w es r) (hc : ∀ tx, c.tx = some tx → tx ∈ stack) :
    OrderlyFrom stack w es := by
  cases h with
  | rejected err => exact .quiet nofun
  | reading f _ h => exact .quiet (h.quiet hc)
  | writing f _ h => exact h.orderlyFrom hc

theorem InTx.orderlyFrom {e : Engine b} {raise : Option α → Error → ε} {c : Context}
    {p : Propagation} {work : Context → Run d ε α}
    {account : Context → History d → List (Event d) → Prop}
    (h : InTx act e raise c p work account w es r)
    (haccount : ∀ c w es stack', (∀ tx ∈ stack, tx ∈ stack') → (∀ tx, c.tx = some tx → tx ∈ stack') →
      account c w es → OrderlyFrom stack' w es)
    (hc : ∀ tx, c.tx = some tx → tx ∈ stack) : OrderlyFrom stack w es := by
  cases h with
  | joined _ _ _ h => exact haccount c w es stack (fun tx htx => htx) hc h
  | without _ _ h => exact haccount c w es stack (fun tx htx => htx) hc h
  | fresh _ h =>
    refine h.orderlyFrom fun tx w es h => ?_
    refine haccount _ w es _ (fun tx htx => List.mem_cons_of_mem _ htx) (fun tx' htx' => ?_) h
    cases htx'
    exact List.mem_cons_self
  | refused _ => exact .quiet nofun

def Held {k : Nat} (stack : List Nat) (env : Fin k → Context) : Prop :=
  ∀ i tx, (env i).tx = some tx → tx ∈ stack

theorem Held.withContext {k : Nat} {env : Fin k → Context} {c : Context} (h : Held stack env)
    (hc : ∀ tx, c.tx = some tx → tx ∈ stack) : Held stack (withContext c env) :=
  fun i => Fin.cases hc h i

theorem Program.Traced.orderlyFrom {k : Nat} {p : Program store d k ε α} {env : Fin k → Context}
    (h : p.Traced act env w es) (henv : Held stack env) : OrderlyFrom stack w es := by
  -- For every stack, as the body of a unit may run on a higher one than the unit itself.
  induction p generalizing w es stack with
  | finish r =>
    rw [show es = [] from h]
    exact .quiet nofun
  | operation i j e t op next ih =>
    obtain ⟨front, back, rfl, hpath, hfront, hback⟩ := h
    exact (hfront.orderlyFrom (henv i)).followed hpath (ih _ hback henv)
  | outside change next ih =>
    obtain ⟨back, rfl, hback⟩ := h
    have hpath : Path act w [.outside change] ⟨change w.state, w.calls⟩ := .outside change (.nil _)
    have hfront : OrderlyFrom stack w [.outside change] :=
      .quiet (List.forall_mem_singleton.mpr (quiet_outside change))
    exact hfront.followed hpath (ih hback henv)
  | context j e next ih => exact ih h (henv.withContext nofun)
  | look i next ih => exact ih _ _ h henv
  | unit i j e p raise body next ihbody ihnext =>
    obtain ⟨front, back, rfl, hpath, hfront, hback⟩ := h
    refine OrderlyFrom.followed ?_ hpath (ihnext _ hback henv)
    refine hfront.orderlyFrom (fun c w es stack' hstack hc hbody => ?_) (henv i)
    exact ihbody hbody (Held.withContext (fun i tx htx => hstack tx (henv i tx htx)) hc)

end
end Polystore
