import Polystore.Engine.Script
import Polystore.Proofs.Engine.Planning
import Polystore.Proofs.Engine.Stores

/-! # Rejected writes

Which statements a write has sent when its query or a payload is rejected: none, unless a batch was
planned and its first statement was accepted before a later one was refused. -/

namespace Polystore
set_option autoImplicit false

section
variable {I : Interface} {b : Backend I} {d : Driver I} {act : Reading I} {α : Type}

/-! ## Rejections -/

/-- No transaction can run the statement. -/
def Refused (b : Backend I) (st : WriteKind × b.Statement) : Prop :=
  ∃ err, ∀ tx, b.refusal? tx st = some err

def Accepted (b : Backend I) (st : WriteKind × b.Statement) : Prop :=
  ∀ tx, b.refusal? tx st = none

/-- The write cannot be planned, or one of its statements cannot be run. -/
def Rejects (e : Engine b) (t : Target) (op : Operation) : Prop :=
  (∃ err, op.statements e t = .error err) ∨
    ∃ sts, op.statements e t = .ok sts ∧ ∃ st ∈ sts, Refused b st

/-- A later statement is refused than the first one. -/
def Late (e : Engine b) (t : Target) (op : Operation) : Prop :=
  ∃ st sts, op.statements e t = .ok (st :: sts) ∧ Accepted b st ∧ ∃ st' ∈ sts, Refused b st'

section
variable {e : Engine b} {t : Target} {op : Operation} {sts : List (WriteKind × b.Statement)}

theorem Accepted.not_refused {st : WriteKind × b.Statement} (h : Accepted b st) : ¬ Refused b st := by
  rintro ⟨err, herr⟩
  have hsome := herr 0
  rw [h 0] at hsome
  cases hsome

theorem rejects_iff (hsts : op.statements e t = .ok sts) :
    Rejects e t op ↔ ∃ st ∈ sts, Refused b st := by
  rw [Rejects, hsts]
  constructor
  · rintro (⟨err, herr⟩ | ⟨sts', hsts', hrefused⟩)
    · cases herr
    · cases hsts'
      exact hrefused
  · exact fun hrefused => .inr ⟨sts, rfl, hrefused⟩

theorem Late.accepted {st : WriteKind × b.Statement}
    (hsts : op.statements e t = .ok (st :: sts)) (h : Late e t op) : Accepted b st := by
  obtain ⟨st', sts', hsts', haccepted, -⟩ := h
  rw [hsts] at hsts'
  cases hsts'
  exact haccepted

theorem late_of_accepted {st : WriteKind × b.Statement}
    (hsts : op.statements e t = .ok (st :: sts)) (haccepted : Accepted b st)
    (hrejects : Rejects e t op) : Late e t op := by
  obtain ⟨st', hmem, hrefused⟩ := (rejects_iff hsts).mp hrejects
  refine ⟨st, sts, hsts, haccepted, st', (List.mem_cons.mp hmem).resolve_left fun heq => ?_, hrefused⟩
  exact haccepted.not_refused (heq ▸ hrefused)

/-- Only writes of many payloads have a later statement. -/
theorem Late.batch (h : Late e t op) :
    (∃ k ps, op = .createAll k ps) ∨ ∃ ps, op = .updateAll ps := by
  obtain ⟨st, sts, hsts, -, st', hmem, -⟩ := h
  cases op with
  | createAll k ps => exact .inl ⟨k, ps, rfl⟩
  | updateAll ps => exact .inr ⟨ps, rfl⟩
  | create k p =>
    obtain ⟨s, -, hs⟩ := bind_eq_ok.mp hsts
    obtain ⟨planned, -, hp⟩ := bind_eq_ok.mp hs
    cases hp
    cases hmem
  | update p =>
    obtain ⟨s, -, hs⟩ := bind_eq_ok.mp hsts
    obtain ⟨st, -, hp⟩ := bind_eq_ok.mp hs
    cases hp
    cases hmem
  | updateWhere p q =>
    obtain ⟨s, -, hs⟩ := bind_eq_ok.mp hsts
    obtain ⟨f, -, hf⟩ := bind_eq_ok.mp hs
    obtain ⟨w, -, hw⟩ := bind_eq_ok.mp hf
    obtain ⟨st, -, hp⟩ := bind_eq_ok.mp hw
    cases hp
    cases hmem
  | deleteWhere q =>
    obtain ⟨s, -, hs⟩ := bind_eq_ok.mp hsts
    obtain ⟨f, -, hf⟩ := bind_eq_ok.mp hs
    obtain ⟨w, -, hw⟩ := bind_eq_ok.mp hf
    obtain ⟨st, -, hp⟩ := bind_eq_ok.mp hw
    cases hp
    cases hmem
  | select q => cases hsts
  | selectForeign q => cases hsts
  | count q => cases hsts

end

/-! ## Statements in a trace -/

def Sent (es : List (Event d)) : Prop := ∃ place ok, Event.call (.run place) ok ∈ es

def answered : Event d → Bool
  | .call (.run _) true => true
  | _ => false

/-- All that was planned has been written. -/
def Written (e : Engine b) (t : Target) (op : Operation) (es : List (Event d)) : Prop :=
  ∃ sts, op.statements e t = .ok sts ∧ es.countP answered = sts.length

variable {place : Place} {qs : List (Option Error)} {es : List (Event d)}

theorem Sends.sent_iff {q : Option Error} {r : Except Error α}
    (h : Sends (.run place) (q :: qs) es r) : Sent es ↔ q = none := by
  cases h with
  | refused err qs => exact ⟨fun ⟨_, _, hmem⟩ => absurd hmem List.not_mem_nil, nofun⟩
  | failed err qs => exact ⟨fun _ => rfl, fun _ => ⟨place, false, List.mem_cons_self⟩⟩
  | sent _ => exact ⟨fun _ => rfl, fun _ => ⟨place, true, List.mem_cons_self⟩⟩

theorem Sends.of_ok {x : α} (h : Sends (.run place) qs es (.ok x : Except Error α)) :
    es.countP answered = qs.length ∧ ∀ q ∈ qs, q = none := by
  generalize hr : (.ok x : Except Error α) = r at h
  induction h with
  | done y => exact ⟨rfl, nofun⟩
  | refused err qs => cases hr
  | failed err qs => cases hr
  | sent _ ih =>
    obtain ⟨hcount, hnone⟩ := ih hr
    refine ⟨?_, List.forall_mem_cons.mpr ⟨rfl, hnone⟩⟩
    rw [List.countP_cons_of_pos rfl, hcount, List.length_cons]

theorem Sends.of_error {err : Error} (h : Sends (.run place) qs es (.error err : Except Error α)) :
    (∃ cause, err = .backend cause) ∨ some err ∈ qs := by
  generalize hr : (.error err : Except Error α) = r at h
  induction h with
  | done y => cases hr
  | refused err' qs =>
    cases hr
    exact .inr List.mem_cons_self
  | failed err' qs =>
    cases hr
    exact .inl ⟨err', rfl⟩
  | sent _ ih => exact (ih hr).imp id (List.mem_cons_of_mem none)

/-! ## Rejected writes -/

def Silent (es : List (Event d)) : Prop := ∀ ev ∈ es, ∀ place ok, ev ≠ .call (.run place) ok

theorem Opened.silent {n : Nat} (h : Opened (.begin n) es) : Silent es := by
  obtain ⟨front, hfront, rfl⟩ := h
  refine List.forall_mem_append.mpr ⟨fun ev hev => ?_, ?_⟩
  · rw [hfront ev hev]
    nofun
  · exact List.forall_mem_singleton.mpr nofun

theorem Silent.sent_iff {front back mid : List (Event d)} (hfront : Silent front)
    (hback : Silent back) : Sent (front ++ mid ++ back) ↔ Sent mid := by
  constructor
  · rintro ⟨place, ok, hmem⟩
    rcases List.mem_append.mp hmem with hmem | hmem
    · rcases List.mem_append.mp hmem with hmem | hmem
      · exact absurd rfl (hfront _ hmem place ok)
      · exact ⟨place, ok, hmem⟩
    · exact absurd rfl (hback _ hmem place ok)
  · rintro ⟨place, ok, hmem⟩
    exact ⟨place, ok, List.mem_append_left _ (List.mem_append_right _ hmem)⟩

theorem Silent.countP {front : List (Event d)} (h : Silent front) : front.countP answered = 0 := by
  refine List.countP_eq_zero.mpr fun ev hev hans => ?_
  match ev, hans with
  | .call (.run place) true, _ => exact h _ hev place true rfl

/-- A write fails by the driver, or it comes to what the sending of its statements does. -/
theorem Writes.outcome {e : Engine b} {c : Context} {work : Nat → Run d Error α} {w : History d}
    {qs : Nat → List (Option Error)} {r : Except Error α}
    (h : Writes act e c work (fun tx => Sends (.run (.within tx)) (qs tx)) w es r) :
    (∃ cause, r = .error (.backend cause)) ∨
      ∃ tx front mid back, es = front ++ mid ++ back ∧ Silent front ∧ Silent back ∧
        Sends (.run (.within tx)) (qs tx) mid r := by
  cases h with
  | bound htx h => exact .inr ⟨_, [], es, [], (List.append_nil es).symm, nofun, nofun, h⟩
  | fresh _ h =>
    cases h with
    | unopened h => exact .inl ⟨_, rfl⟩
    | uncommitted _ _ _ _ => exact .inl ⟨_, rfl⟩
    | committed hfront _ h hr =>
      refine .inr ⟨_, _, _, _, rfl, hfront.silent, ?_, hr ▸ h⟩
      exact List.forall_mem_singleton.mpr nofun
    | undone hfront _ h hr =>
      refine .inr ⟨_, _, _, _, rfl, hfront.silent, ?_, hr ▸ h⟩
      exact List.forall_mem_singleton.mpr nofun

structure Judged (e : Engine b) (t : Target) (op : Operation) (es : List (Event d))
    (r : Except Error α) : Prop where
  /-- It fails by the driver, is rejected, or has written all. -/
  cause : (∃ err, r = .error (.backend err)) ∨ Rejects e t op ∨ Written e t op es
  /-- If it is rejected it fails, and unless the driver fails first it has sent statements if and
  only if the refused one is a later one than the first. -/
  rejected : Rejects e t op → ∃ err, r = .error err ∧
    ((∀ fault, err ≠ .backend fault) → (Sent es ↔ Late e t op))

section
variable {e : Engine b} {t : Target} {op : Operation} {sts : List (WriteKind × b.Statement)}
  {r : Except Error α} {tx : Nat}

theorem Sends.judged (hb : ∀ st, Refused b st ∨ Accepted b st)
    (hsts : op.statements e t = .ok sts)
    (h : Sends (.run (.within tx)) (sts.map (b.refusal? tx)) es r) : Judged e t op es r := by
  cases r with
  | ok x =>
    obtain ⟨hcount, hnone⟩ := h.of_ok
    rw [List.length_map] at hcount
    refine ⟨.inr (.inr ⟨sts, hsts, hcount⟩), fun hrejects => ?_⟩
    obtain ⟨st, hst, err, herr⟩ := (rejects_iff hsts).mp hrejects
    have hsome := hnone _ (List.mem_map_of_mem hst)
    rw [herr tx] at hsome
    cases hsome
  | error err =>
    refine ⟨?_, fun hrejects => ⟨err, rfl, fun _ => ?_⟩⟩
    · obtain ⟨fault, rfl⟩ | hmem := h.of_error
      · exact .inl ⟨fault, rfl⟩
      refine .inr (.inl ((rejects_iff hsts).mpr ?_))
      obtain ⟨st, hst, hq⟩ := List.mem_map.mp hmem
      refine ⟨st, hst, (hb st).resolve_right fun haccepted => ?_⟩
      rw [haccepted tx] at hq
      cases hq
    · -- Whether anything is sent is decided by the first statement alone.
      obtain ⟨st', hmem, -⟩ := (rejects_iff hsts).mp hrejects
      cases sts with
      | nil => cases hmem
      | cons st sts =>
        rw [List.map_cons] at h
        rw [h.sent_iff]
        refine ⟨fun hnone => ?_, fun hlate => hlate.accepted hsts tx⟩
        refine late_of_accepted hsts ((hb st).resolve_left fun ⟨err', herr'⟩ => ?_) hrejects
        rw [herr' tx] at hnone
        cases hnone

/-- Calls around the statements change nothing. -/
theorem Judged.amid {front mid back : List (Event d)} (h : Judged e t op mid r)
    (hfront : Silent front) (hback : Silent back) : Judged e t op (front ++ mid ++ back) r where
  cause := h.cause.imp id fun h => h.imp id fun ⟨sts, hsts, hcount⟩ => by
    refine ⟨sts, hsts, ?_⟩
    rw [List.countP_append, List.countP_append, hfront.countP, hback.countP, hcount]
    omega
  rejected hrejects := by
    rw [hfront.sent_iff hback]
    exact h.rejected hrejects

theorem judged_of_backend (err : BackendError) :
    Judged e t op es (.error (.backend err) : Except Error α) :=
  ⟨.inl ⟨err, rfl⟩, fun _ => ⟨_, rfl, fun hne => absurd rfl (hne err)⟩⟩

theorem judged_of_unplanned {err : Error} (herr : op.statements e t = .error err) :
    Judged e t op ([] : List (Event d)) (.error err : Except Error α) := by
  refine ⟨.inr (.inl (.inl ⟨err, herr⟩)), fun _ => ⟨err, rfl, fun _ => ?_⟩⟩
  refine ⟨fun ⟨_, _, hmem⟩ => absurd hmem List.not_mem_nil, fun ⟨st, sts, hsts, _⟩ => ?_⟩
  rw [herr] at hsts
  cases hsts

/-- What follows when all has been written does not matter. -/
theorem Judged.bind {β : Type} (h : Judged e t op es r) (f : α → Except Error β) :
    Judged e t op es (r >>= f) := by
  cases r with
  | error err =>
    rw [show (.error err : Except Error α) >>= f = .error err from rfl]
    refine ⟨?_, fun hrejects => ?_⟩
    · obtain ⟨fault, hfault⟩ | hrest := h.cause
      · cases hfault
        exact .inl ⟨fault, rfl⟩
      · exact .inr hrest
    · obtain ⟨err', herr', hsent⟩ := h.rejected hrejects
      cases herr'
      exact ⟨err, rfl, hsent⟩
  | ok x =>
    refine ⟨.inr (h.cause.resolve_left nofun), fun hrejects => ?_⟩
    obtain ⟨err, herr, -⟩ := h.rejected hrejects
    cases herr

theorem Attempts.judged {c : Context} {w : History d} (hb : ∀ st, Refused b st ∨ Accepted b st)
    (h : Attempts act e c (op.statements e t) w es r) : Judged e t op es r := by
  cases h with
  | rejected herr => exact judged_of_unplanned herr
  | attempted f hsts h =>
    refine Judged.bind ?_ f
    obtain ⟨err, rfl⟩ | ⟨tx, front, mid, back, rfl, hfront, hback, h⟩ := h.outcome
    · exact judged_of_backend err
    · exact (h.judged hb hsts).amid hfront hback

end
end

/-! ## Both kinds of stores -/

theorem refusal?_map {α β : Type} (r : Except Error α) (f : α → β) :
    refusal? (r.map f) = refusal? r := by
  cases r <;> rfl

namespace Sql

def WriteKind.bindOp : WriteKind → BindOp
  | .insert => .insert
  | .upsert => .upsertSet
  | .update => .updateSet
  | .delete => .filter

theorem refusal?_eq (dialect : Dialect) (tx : Nat) (k : WriteKind) (st : Statement) :
    (backend dialect).refusal? tx (k, st) =
      refusal? ((Preparer.ofDialect dialect).prepare (WriteKind.bindOp k) st) := by
  cases k <;> exact (refusal?_map _ _).trans (refusal?_map _ _)

theorem refused_or_accepted (dialect : Dialect) (st : WriteKind × Statement) :
    Refused (backend dialect) st ∨ Accepted (backend dialect) st := by
  obtain ⟨k, st⟩ := st
  cases h : (Preparer.ofDialect dialect).prepare (WriteKind.bindOp k) st with
  | error err =>
    exact .inl ⟨err, fun tx => (refusal?_eq dialect tx k st).trans (congrArg refusal? h)⟩
  | ok prepared => exact .inr fun tx => (refusal?_eq dialect tx k st).trans (congrArg refusal? h)

end Sql

namespace Documents

theorem refused_or_accepted (st : WriteKind × Statement) :
    Refused backend st ∨ Accepted backend st := by
  obtain ⟨k, st⟩ := st
  cases h : documentOf st with
  | error err =>
    have hmap : ∀ {α : Type} (f : Document → α), refusal? ((documentOf st).map f) = some err :=
      fun f => (refusal?_map _ f).trans (congrArg refusal? h)
    cases k with
    | insert => exact .inl ⟨err, fun tx => hmap _⟩
    | upsert => exact .inl ⟨err, fun tx => hmap _⟩
    | update => exact .inl ⟨err, fun tx => hmap _⟩
    | delete => exact .inr fun tx => rfl
  | ok doc =>
    have hmap : ∀ {α : Type} (f : Document → α), refusal? ((documentOf st).map f) = none :=
      fun f => (refusal?_map _ f).trans (congrArg refusal? h)
    cases k with
    | insert => exact .inr fun tx => hmap _
    | upsert => exact .inr fun tx => hmap _
    | update => exact .inr fun tx => hmap _
    | delete => exact .inr fun tx => rfl

theorem insert_document {s : Scope} {w : Insert} {st : Statement} (h : insert s w = .ok st) :
    ∃ doc, st.document = some doc := by
  unfold insert at h
  split at h
  · cases h
  · obtain ⟨doc, -, hst⟩ := bind_eq_ok.mp h
    cases hst
    exact ⟨doc, rfl⟩

theorem upsert_document {s : Scope} {w : Upsert} {st : Statement} (h : upsert s w = .ok st) :
    ∃ doc, st.document = some doc := by
  unfold upsert at h
  split at h
  · cases h
  · obtain ⟨x, -, hx⟩ := bind_eq_ok.mp h
    obtain ⟨sets, -, hsets⟩ := bind_eq_ok.mp hx
    obtain ⟨news, -, hst⟩ := bind_eq_ok.mp hsets
    cases hst
    exact ⟨_, rfl⟩

theorem update_document {s : Scope} {w : Update} {st : Statement} (h : update s w = .ok st) :
    ∃ doc, st.document = some doc := by
  obtain ⟨doc, -, hdoc⟩ := bind_eq_ok.mp h
  obtain ⟨filter, -, hst⟩ := bind_eq_ok.mp hdoc
  cases hst
  exact ⟨doc, rfl⟩

/-- What is compiled has the document that it is run with. -/
theorem accepted_of_compiled {s : Scope} {w : Write} {st : Statement} (h : write s w = .ok st) :
    Accepted backend (w.kind, st) := by
  intro tx
  obtain ⟨st', hst', rfl⟩ := map_eq_ok.mp h
  have hmap : ∀ {α : Type} (f : Document → α), (∃ doc, st'.document = some doc) →
      refusal? ((documentOf { st' with write := some w }).map f) = none := by
    rintro α f ⟨doc, hdoc⟩
    rw [refusal?_map, documentOf, hdoc]
    rfl
  cases w with
  | insert w => exact hmap _ (insert_document hst')
  | upsert w => exact hmap _ (upsert_document hst')
  | update w => exact hmap _ (update_document hst')
  | delete w => rfl

end Documents

/-- A document store refuses no statement that has been planned. -/
theorem not_late_documents (e : Engine Documents.backend) (t : Target) (op : Operation) :
    ¬ Late e t op := by
  rintro ⟨st, sts, hsts, -, st', hst', hrefused⟩
  obtain ⟨s, w, hst, hkind⟩ := statements_compiled hsts st' (List.mem_cons_of_mem st hst')
  have haccepted : Accepted Documents.backend (w.kind, st'.2) := Documents.accepted_of_compiled hst
  rw [hkind] at haccepted
  exact haccepted.not_refused hrefused

theorem emits_judged {I : Interface} {b : Backend I} {d : Driver I} {act : Reading I}
    (hb : Conduct b act) (hst : ∀ st, Refused b st ∨ Accepted b st) (e : Engine b) (c : Context)
    (t : Target) {op : Operation} (hop : op.reads = false) :
    Emits act (op.run e c t : Run d Error Result) fun _ es r => Judged e t op es r :=
  (attempts_operation hb e c t hop).mono fun _ _ _ h => h.judged hst

/-- A rejected write has sent statements only if the store is an SQL store and it is a batch whose
first statement was accepted and a later one refused, or if the driver failed before. -/
theorem rejected_writes {op : Operation} (hop : op.reads = false) (c : Context) (t : Target) :
    (∀ {dialect : Sql.Dialect} {d : Driver Sql.interface} (e : Engine (Sql.backend dialect))
      (w : History d), ∃ es, Path Sql.Call.act w es (op.run e c t w).2 ∧
        Judged e t op es (op.run e c t w).1 ∧
        (Late e t op → (∃ k ps, op = .createAll k ps) ∨ ∃ ps, op = .updateAll ps)) ∧
    ∀ {d : Driver Documents.interface} (e : Engine Documents.backend) (w : History d),
      ∃ es, Path Documents.Call.act w es (op.run e c t w).2 ∧
        Judged e t op es (op.run e c t w).1 ∧ ¬ Late e t op := by
  refine ⟨fun {dialect} {d} e w => ?_, fun {d} e w => ?_⟩
  · obtain ⟨es, hpath, hes⟩ :=
      emits_judged (Sql.conduct dialect) (Sql.refused_or_accepted dialect) e c t hop w
    exact ⟨es, hpath, hes, fun h => h.batch⟩
  · obtain ⟨es, hpath, hes⟩ :=
      emits_judged Documents.conduct Documents.refused_or_accepted e c t hop w
    exact ⟨es, hpath, hes, not_late_documents e t op⟩

def item : Entity :=
  ⟨"Item", .entity, some "items",
    [("id", ⟨.scalar "long", true, false, []⟩), ("qty", .ofType (.scalar "long"))],
    [("core", ⟨"core", [], none⟩)]⟩

def items : Engine (Sql.backend .postgres) where
  id := 0
  handle := .ofId "main"
  model := ⟨[("Item", item)], [("core", "Item")]⟩
  planner := ⟨.explicit, [], [("Item", Capability.all)]⟩
  validation _ _ _ := .ok ()
  propagation := .required

/-- Two items, the second one with a text for a number. -/
def twoItems : Operation := .createAll .insert
  [.document [("id", .long 1), ("qty", .long 5)],
    .document [("id", .long 2), ("qty", .str "many")]]

theorem late_twoItems : Late items ⟨"Item", "core"⟩ twoItems := by
  refine ⟨_, _, rfl, ?_, _, List.mem_singleton.mpr rfl, .codec (.encode "long" "string"), ?_⟩
  · exact fun tx => (Sql.refusal?_eq .postgres tx _ _).trans (by decide +kernel)
  · exact fun tx => (Sql.refusal?_eq .postgres tx _ _).trans (by decide +kernel)

/-- A driver that answers every call, and got none yet. -/
def idle : History Sql.scripted := ⟨Script.empty, []⟩

/-- In the transaction of its caller, the first of the items stays written. -/
theorem twoItems_half_written : twoItems.reads = false ∧
    ∃ es, Path Sql.Call.act idle es (twoItems.run items ⟨0, some 7⟩ ⟨"Item", "core"⟩ idle).2 ∧
      Sent es ∧ refusal? (twoItems.run items ⟨0, some 7⟩ ⟨"Item", "core"⟩ idle).1 =
        some (.codec (.encode "long" "string")) := by
  refine ⟨rfl, ?_⟩
  obtain ⟨es, hpath, hjudged, -⟩ :=
    (@rejected_writes twoItems rfl ⟨0, some 7⟩ ⟨"Item", "core"⟩).1 items idle
  have hresult : refusal? (twoItems.run items ⟨0, some 7⟩ ⟨"Item", "core"⟩ idle).1 =
      some (.codec (.encode "long" "string")) := by
    decide +kernel
  have hrejects : Rejects items ⟨"Item", "core"⟩ twoItems := by
    obtain ⟨st, sts, hsts, -, st', hmem, hrefused⟩ := late_twoItems
    exact .inr ⟨_, hsts, st', List.mem_cons_of_mem st hmem, hrefused⟩
  obtain ⟨err, herr, hsent⟩ := hjudged.rejected hrejects
  refine ⟨es, hpath, (hsent fun fault hfault => ?_).mpr late_twoItems, hresult⟩
  rw [herr, hfault] at hresult
  cases hresult

end Polystore
