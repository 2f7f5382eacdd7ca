import Polystore.Proofs.Sql.Markers
import Polystore.Sql.Prepare

/-! # Preparing statements

Each bind is encoded and placed without regard to the others: with the default binders the
arguments of a statement are those its binds would have alone, one behind the other. -/

namespace Polystore.Sql
set_option autoImplicit false

/-! ## Slots -/

theorem put_length (slots : BoundParams) (arg : SqlArg) :
    BoundParams.put arg slots.length slots = slots ++ [some arg] := by
  induction slots with
  | nil => rfl
  | cons slot slots ih => exact congrArg (slot :: ·) ih

theorem set_length (slots : BoundParams) (arg : SqlArg) :
    slots.set (slots.length + 1) arg = slots ++ [some arg] := put_length slots arg

theorem args_map_some (args : List SqlArg) : BoundParams.args (args.map some) = args := by
  rw [BoundParams.args, List.map_map]
  exact List.map_id args

/-! ## The default binders -/

/-- Fills the slot of its context, and nothing else of the context matters. -/
def IsSlotBinder (b : Binder BoundParams) : Prop :=
  ∃ kind supports arg, b = slotBinder kind supports arg

/-- The first binder that takes a value is the same in every context. -/
theorem find?_slotBinder {bs : List (Binder BoundParams)} (h : ∀ x ∈ bs, IsSlotBinder x)
    (hp : plainBinder ∈ bs) (b : Bind) (v : Value) :
    ∃ x, IsSlotBinder x ∧ ∀ ctx, bs.find? (·.accepts ctx b v) = some x := by
  induction bs with
  | nil => cases hp
  | cons x xs ih =>
    have hx := h x List.mem_cons_self
    obtain ⟨kind, supports, arg, rfl⟩ := hx
    cases ha : (slotBinder kind supports arg).accepts ⟨.filter, .position 1⟩ b v with
    | true => exact ⟨_, ⟨kind, supports, arg, rfl⟩, fun ctx => List.find?_cons_of_pos ha⟩
    | false =>
      have hne : plainBinder ≠ slotBinder kind supports arg := by
        intro he
        rw [← he] at ha
        cases ha
      have hmem : plainBinder ∈ xs := (List.mem_cons.mp hp).resolve_left hne
      obtain ⟨y, hy, hfind⟩ := ih (fun z hz => h z (List.mem_cons_of_mem _ hz)) hmem
      refine ⟨y, hy, fun ctx => ?_⟩
      rw [List.find?_cons_of_neg]
      · exact hfind ctx
      · exact Bool.eq_false_iff.mp ha

/-- The default binders of parameter lists, in the order in which they are asked. -/
def slotBinders : Dialect → List (Binder BoundParams)
  | .ansi => [timestampBinder, containerBinder, plainBinder]
  | .postgres => [jsonbBinder, arrayBinder, timestampBinder, containerBinder, plainBinder]

theorem candidates_params (d : Dialect) :
    defaultBinders.candidates d.name StoreTarget.params = slotBinders d := by
  cases d <;> rfl

theorem bind_of_find? {T : Targets} {t : BinderTable T} {dialect : String} {k : T.Key}
    {ctx : BindContext} {b : Bind} {v : Value} {x : Binder (T.Carrier k)}
    (h : (t.candidates dialect k).find? (·.accepts ctx b v) = some x) (target : T.Carrier k) :
    t.bind dialect k target ctx b v = x.bind target ctx b v := by
  rw [BinderTable.bind, h]

theorem plainBinder_mem (d : Dialect) : plainBinder ∈ slotBinders d := by
  cases d <;> simp [slotBinders]

theorem isSlotBinder_of_mem {d : Dialect} {x : Binder BoundParams} (h : x ∈ slotBinders d) :
    IsSlotBinder x := by
  have hslot : ∀ kind supports arg, IsSlotBinder (slotBinder kind supports arg) :=
    fun kind supports arg => ⟨kind, supports, arg, rfl⟩
  cases d with
  | ansi =>
    simp only [slotBinders, List.mem_cons, List.not_mem_nil, or_false] at h
    rcases h with rfl | rfl | rfl <;> exact hslot _ _ _
  | postgres =>
    simp only [slotBinders, List.mem_cons, List.not_mem_nil, or_false] at h
    rcases h with rfl | rfl | rfl | rfl | rfl <;> exact hslot _ _ _

/-- The default binders take every value, and make of it an argument that depends on nothing but
the bind. -/
theorem bind_default (d : Dialect) (b : Bind) (v : Value) :
    ∃ arg : SqlArg, ∀ (op : BindOp) (slots : BoundParams),
      defaultBinders.bind d.name StoreTarget.params slots ⟨op, .position (slots.length + 1)⟩ b v =
        .ok (slots ++ [some arg]) := by
  obtain ⟨x, ⟨kind, supports, arg, rfl⟩, hfind⟩ :=
    find?_slotBinder (fun _ => isSlotBinder_of_mem) (plainBinder_mem d) b v
  refine ⟨arg b.typeId v, fun op slots => ?_⟩
  have hfirst := (congrArg (List.find? _) (candidates_params d)).trans
    (hfind ⟨op, .position (slots.length + 1)⟩)
  refine Eq.trans (bind_of_find? (T := storeTargets) (k := StoreTarget.params) hfirst slots) ?_
  exact congrArg Except.ok (set_length slots (arg b.typeId v))

/-! ## Placing -/

/-- What a bind alone is placed as. -/
def argument (d : Dialect) (b : Bind) : Except Error SqlArg :=
  ((Preparer.ofDialect d).place .filter 0 [] [b]).map fun slots =>
    (BoundParams.args slots).headD (.plain .null)

theorem place_of_encode {p : Preparer} {op : BindOp} {n : Nat} {slots slots' : BoundParams} {b : Bind}
    {v : Value} (he : p.types.encode b.typeId b.value = .ok v)
    (hb : p.binders.bind p.dialect.name StoreTarget.params slots ⟨op, .position (n + 1)⟩ b v =
      .ok slots') (bs : List Bind) :
    p.place op n slots (b :: bs) = p.place op (n + 1) slots' bs := by
  have hstep : p.place op n slots (b :: bs) =
      (p.binders.bind p.dialect.name StoreTarget.params slots ⟨op, .position (n + 1)⟩ b v).bind
        fun slots => p.place op (n + 1) slots bs := by
    rw [Preparer.place, he]
    rfl
  exact hstep.trans (congrArg (Except.bind · _) hb)

theorem place_of_encode_error {p : Preparer} {op : BindOp} {n : Nat} {slots : BoundParams} {b : Bind}
    {e : CodecError} (he : p.types.encode b.typeId b.value = .error e) (bs : List Bind) :
    p.place op n slots (b :: bs) = .error (.codec e) := by
  rw [Preparer.place, he]
  rfl

theorem place_cons (d : Dialect) (op : BindOp) (slots : BoundParams) (b : Bind) (bs : List Bind) :
    (Preparer.ofDialect d).place op slots.length slots (b :: bs) =
      (argument d b).bind fun arg =>
        (Preparer.ofDialect d).place op (slots.length + 1) (slots ++ [some arg]) bs := by
  unfold argument
  cases he : (Preparer.ofDialect d).types.encode b.typeId b.value with
  | error e =>
    rw [place_of_encode_error he, place_of_encode_error he]
    rfl
  | ok v =>
    obtain ⟨arg, harg⟩ := bind_default d b v
    rw [place_of_encode he (harg op slots), place_of_encode (n := 0) he (harg .filter [])]
    rfl

theorem place_eq_mapM (d : Dialect) (op : BindOp) (slots : BoundParams) (bs : List Bind) :
    (Preparer.ofDialect d).place op slots.length slots bs =
      (bs.mapM (argument d)).map fun args => slots ++ args.map some := by
  induction bs generalizing slots with
  | nil => exact congrArg Except.ok (List.append_nil slots).symm
  | cons b bs ih =>
    rw [place_cons, List.mapM_cons]
    cases argument d b with
    | error e => rfl
    | ok arg =>
      have h := ih (slots ++ [some arg])
      rw [List.length_append] at h
      refine Eq.trans h ?_
      cases bs.mapM (argument d) with
      | error e => rfl
      | ok args => exact congrArg Except.ok (List.append_assoc slots [some arg] (args.map some))

theorem argument_of_encode {d : Dialect} {b : Bind} {v : Value}
    (h : (TypeTable.ofDialect d.name).encode b.typeId b.value = .ok v) :
    ∃ arg, argument d b = .ok arg := by
  obtain ⟨arg, harg⟩ := bind_default d b v
  refine ⟨arg, ?_⟩
  have he : (Preparer.ofDialect d).types.encode b.typeId b.value = .ok v := h
  rw [argument, place_of_encode (n := 0) he (harg .filter [])]
  rfl

theorem argument_error {d : Dialect} {b : Bind} {e : Error} (h : argument d b = .error e) :
    ∃ c, e = .codec c := by
  cases he : (TypeTable.ofDialect d.name).encode b.typeId b.value with
  | ok v =>
    obtain ⟨arg, harg⟩ := argument_of_encode he
    cases harg.symm.trans h
  | error c =>
    have he : (Preparer.ofDialect d).types.encode b.typeId b.value = .error c := he
    rw [argument, place_of_encode_error he] at h
    cases h
    exact ⟨c, rfl⟩

/-! ## Preparing -/

/-- Where the markers are as many as the binds, the arguments are those of the single binds. -/
theorem prepare_eq {d : Dialect} {st : Statement} (h : (scan st.text).length = st.binds.length)
    (op : BindOp) : (Preparer.ofDialect d).prepare op st =
      (st.binds.mapM (argument d)).map fun args => ⟨numberMarkers d.placeholder st.text, args⟩ := by
  have hplace := place_eq_mapM d op [] st.binds
  unfold Preparer.prepare
  simp only [h, ne_eq, not_true_eq_false, if_false]
  show ((Preparer.ofDialect d).place op 0 [] st.binds).bind _ = _
  refine (congrArg (Except.bind · _) hplace).trans ?_
  cases st.binds.mapM (argument d) with
  | error e => rfl
  | ok args => exact congrArg (fun args => Except.ok (Prepared.mk _ args)) (args_map_some args)

theorem mapM_argument_error {d : Dialect} {bs : List Bind} {e : Error}
    (h : bs.mapM (argument d) = .error e) : ∃ c, e = .codec c := by
  induction bs with
  | nil => cases h
  | cons b bs ih =>
    rw [List.mapM_cons] at h
    cases hb : argument d b with
    | error f =>
      rw [hb] at h
      cases h
      exact argument_error hb
    | ok arg =>
      rw [hb] at h
      cases hbs : bs.mapM (argument d) with
      | error f =>
        rw [hbs] at h
        cases h
        exact ih hbs
      | ok args =>
        rw [hbs] at h
        cases h

theorem mapM_argument_ok {d : Dialect} {bs : List Bind}
    (h : ∀ b ∈ bs, ∃ v, (TypeTable.ofDialect d.name).encode b.typeId b.value = .ok v) :
    ∃ args : List SqlArg, bs.mapM (argument d) = .ok args ∧ args.length = bs.length ∧
      ∀ (i : Nat) b, bs[i]? = some b → ∃ arg, argument d b = .ok arg ∧ args[i]? = some arg := by
  induction bs with
  | nil => exact ⟨[], rfl, rfl, nofun⟩
  | cons b bs ih =>
    obtain ⟨args, hargs, hlen, hall⟩ := ih fun c hc => h c (List.mem_cons_of_mem _ hc)
    obtain ⟨v, hv⟩ := h b List.mem_cons_self
    obtain ⟨arg, harg⟩ := argument_of_encode hv
    refine ⟨arg :: args, ?_, congrArg (· + 1) hlen, ?_⟩
    · rw [List.mapM_cons, harg, hargs]
      rfl
    · intro i c hc
      cases i with
      | zero =>
        cases hc
        exact ⟨arg, harg, rfl⟩
      | succ i => exact hall i c hc

/-- In every statement of the compiler the scanner finds one marker for each bind, in their order,
whatever values, filters and paths there are. Preparing it therefore never finds their numbers to
differ; and if every bind can be encoded it gives one argument for each marker, the one that the
bind of the same place would have alone. -/
theorem prepare_compiled {d : Dialect} {s : Scope} (hs : TidyScope s) {params : Entries Value}
    {native : List Marker} {st : Statement} (h : Compiled d s params native st) (op : BindOp) :
    st.Numbered params native ∧ (scan st.text).length = st.binds.length ∧
      (∀ markers binds, (Preparer.ofDialect d).prepare op st ≠
        .error (.planning (.bindCountMismatch markers binds))) ∧
      ((∀ b ∈ st.binds, ∃ v, (TypeTable.ofDialect d.name).encode b.typeId b.value = .ok v) →
        ∃ args : List SqlArg, (Preparer.ofDialect d).prepare op st =
            .ok ⟨numberMarkers d.placeholder st.text, args⟩ ∧
          args.length = (scan st.text).length ∧
          ∀ (i : Nat) b, st.binds[i]? = some b → ∃ arg, argument d b = .ok arg ∧ args[i]? = some arg) := by
  have hnum := h.numbered hs
  have hlen := hnum.length_scan
  have hprep := prepare_eq (d := d) hlen op
  refine ⟨hnum, hlen, fun markers binds hm => ?_, fun hencode => ?_⟩
  · rw [hprep] at hm
    cases hb : st.binds.mapM (argument d) with
    | ok args =>
      rw [hb] at hm
      cases hm
    | error e =>
      -- Binds are only refused by their codecs.
      rw [hb] at hm
      obtain ⟨c, hc⟩ := mapM_argument_error hb
      rw [hc] at hm
      cases hm
  · obtain ⟨args, hargs, hal, hall⟩ := mapM_argument_ok hencode
    refine ⟨args, ?_, hal.trans hlen.symm, hall⟩
    rw [hprep, hargs]
    rfl

theorem tidyScope_people : TidyScope people := by
  have hcases : ∀ {α : Type} {a b x : String × α}, x ∈ [a, b] → x = a ∨ x = b :=
    fun hx => (List.mem_cons.mp hx).imp id List.mem_singleton.mp
  have hage : Tidy "age" := tidy_of_plain (by decide)
  have hname : Tidy "name" := tidy_of_plain (by decide)
  refine ⟨fun t ht => ?_, fun name f hf => ?_, fun path m hm => ?_, nofun⟩
  · have hsource : people.entity.source? = some "people" := rfl
    cases hsource.symm.trans ht
    exact tidy_of_plain (by decide)
  · rcases hcases hf with h | h
    · rw [(Prod.mk.inj h).1]
      exact hage
    · rw [(Prod.mk.inj h).1]
      exact hname
  · rcases hcases hm with h | h
    · rw [(Prod.mk.inj h).2]
      exact ⟨fun t ht => by cases ht; exact hage, nofun⟩
    · rw [(Prod.mk.inj h).2]
      exact ⟨fun t ht => by cases ht; exact hname, nofun⟩

theorem prepare_people : ∃ st, select .postgres people (some minorsByName) [⟨"age", .asc⟩]
      (.seek 2 [("age", .int 5)]) [] = .ok st ∧ TidyScope people ∧
    ∃ args, (Preparer.ofDialect .postgres).prepare .filter st =
      .ok ⟨numberMarkers Dialect.postgres.placeholder st.text, args⟩ ∧ args.length = 2 := by
  refine ⟨_, rfl, tidyScope_people, ?_⟩
  obtain ⟨-, hlen, -, hargs⟩ := prepare_compiled (d := .postgres) tidyScope_people
    (@Compiled.select .postgres people [] (some minorsByName) [⟨"age", .asc⟩]
      (.seek 2 [("age", .int 5)]) _ rfl) .filter
  obtain ⟨args, hprep, hal, -⟩ := hargs (by
    intro b hb
    rcases List.mem_cons.mp hb with rfl | hb
    · exact ⟨_, rfl⟩
    · cases List.mem_singleton.mp hb
      exact ⟨_, rfl⟩)
  exact ⟨args, hprep, hal.trans hlen⟩

end Polystore.Sql
