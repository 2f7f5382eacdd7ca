import Polystore.Proofs.Sql.Where

/-! # What values cannot change

Two runs of the compiler on filters, pages and writes of one shape, with values of their own. The
values go to the binds and nowhere else: both runs end in the same error, or in statements with the
same text and binds of the same types. A path inside a JSON field is part of the shape, as it is
written out. -/

namespace Polystore
set_option autoImplicit false

/-! ## Shapes -/

/-- Two conditions differ in their operands alone, and these are null in the same places. -/
structure Condition.Alike (c e : Condition) : Prop where
  property : c.property = e.property
  operator : c.operator = e.operator
  negated : c.negated = e.negated
  value : c.value.isNull = e.value.isNull
  lower : c.lower.isNull = e.lower.isNull
  upper : c.upper.isNull = e.upper.isNull
  items : c.operator.isListShaped = true →
    c.value.toList.map Value.isNull = e.value.toList.map Value.isNull
  path : c.operator = .jsonPathExists → c.value.str? = e.value.str?
  /-- Both operands have a path and a value, or neither has. -/
  form : c.operator = .jsonValueEq →
    (JsonPath.operand? c.value).isSome = (JsonPath.operand? e.value).isSome

mutual
inductive Filter.Alike : Filter → Filter → Prop
  | cond {c e : Condition} (h : c.Alike e) : Filter.Alike (.cond c) (.cond e)
  | not {f g : Filter} (h : Filter.Alike f g) : Filter.Alike (.not f) (.not g)
  | group (clause : Clause) {fs gs : List Filter} (h : Filter.AlikeAll fs gs) :
    Filter.Alike (.group clause fs) (.group clause gs)
inductive Filter.AlikeAll : List Filter → List Filter → Prop
  | nil : Filter.AlikeAll [] []
  | cons {f g : Filter} {fs gs : List Filter} (h : Filter.Alike f g)
    (hs : Filter.AlikeAll fs gs) : Filter.AlikeAll (f :: fs) (g :: gs)
end

/-- The fields that a page is sought behind, with the places of its nulls. -/
def sought (after : Entries Value) : List (String × Bool) := after.map fun e => (e.1, e.2.isNull)

/-- The same part of a result, sought with values for the same fields. -/
inductive Page.Alike : Page → Page → Prop
  | offset (offset limit : UInt64) : Page.Alike (.offset offset limit) (.offset offset limit)
  | seek (limit : UInt64) {after after' : Entries Value} (h : sought after = sought after') :
    Page.Alike (.seek limit after) (.seek limit after')

def ColumnBind.shape (c : ColumnBind) : String × String := (c.column, c.bind.typeId)

structure Insert.Alike (w w' : Insert) : Prop where
  table : w.table = w'.table
  columns : w.columns.map ColumnBind.shape = w'.columns.map ColumnBind.shape
  returning : w.returning = w'.returning

/-- Writes of the same columns, with values of the same types, under filters of one shape. -/
inductive Write.Alike : Write → Write → Prop
  | insert {w w' : Insert} (h : w.Alike w') : Write.Alike (.insert w) (.insert w')
  | update (table : String) {sets sets' : List ColumnBind} {filter filter' : Option Filter}
    (hsets : sets.map ColumnBind.shape = sets'.map ColumnBind.shape)
    (hfilter : Option.Rel Filter.Alike filter filter') :
    Write.Alike (.update ⟨table, sets, filter⟩) (.update ⟨table, sets', filter'⟩)
  | delete (table : String) {filter filter' : Option Filter}
    (hfilter : Option.Rel Filter.Alike filter filter') :
    Write.Alike (.delete ⟨table, filter⟩) (.delete ⟨table, filter'⟩)
  | upsert {w w' : Insert} (h : w.Alike w') (conflict updates : List String) :
    Write.Alike (.upsert ⟨w, conflict, updates⟩) (.upsert ⟨w', conflict, updates⟩)

namespace Sql

open Tokens (key spaced commaSeparated parenthesized)

def typeIds (bs : List Bind) : List String := bs.map (·.typeId)

/-- Two outcomes of compilation that show no more of the values than their types. -/
inductive Indistinct : Except Error Statement → Except Error Statement → Prop
  | ok {st st' : Statement} (text : st.text = st'.text) (exec : st.exec = st'.exec)
    (binds : typeIds st.binds = typeIds st'.binds) : Indistinct (.ok st) (.ok st')
  | error (e : Error) : Indistinct (.error e) (.error e)

/-- Two outcomes of a part of the compiler that are the same up to the values of binds. -/
inductive Twins {α : Type} : Except Error (Bound α) → Except Error (Bound α) → Prop
  | ok (a : α) {bs cs : List Bind} (h : typeIds bs = typeIds cs) :
    Twins (.ok (a, bs)) (.ok (a, cs))
  | error (e : Error) : Twins (.error e) (.error e)

section
variable {α β : Type} {bs bs' cs cs' : List Bind}

theorem typeIds_append (bs cs : List Bind) : typeIds (bs ++ cs) = typeIds bs ++ typeIds cs :=
  List.map_append

theorem length_of_typeIds (h : typeIds bs = typeIds cs) : bs.length = cs.length := by
  have hlength := congrArg List.length h
  rwa [typeIds, typeIds, List.length_map, List.length_map] at hlength

theorem Twins.of_except {r : Except Error α} {bs cs : List Bind} (h : typeIds bs = typeIds cs) :
    Twins (r.map fun a => (a, bs)) (r.map fun a => (a, cs)) := by
  cases r with
  | error e => exact .error e
  | ok a => exact .ok a h

/-- What follows two such outcomes keeps a relation that equal errors have. -/
theorem Twins.next {R : Except Error β → Except Error β → Prop}
    (herror : ∀ e, R (.error e) (.error e)) {x y : Except Error (Bound α)}
    {f g : Bound α → Except Error β} (h : Twins x y)
    (hnext : ∀ a bs cs, typeIds bs = typeIds cs → R (f (a, bs)) (g (a, cs))) :
    R (x >>= f) (y >>= g) := by
  cases h with
  | ok a hbinds => exact hnext a _ _ hbinds
  | error e => exact herror e

theorem Twins.bind {x y : Except Error (Bound α)} {f g : Bound α → Except Error (Bound β)}
    (h : Twins x y)
    (hnext : ∀ a bs cs, typeIds bs = typeIds cs → Twins (f (a, bs)) (g (a, cs))) :
    Twins (x >>= f) (y >>= g) := h.next Twins.error hnext

theorem Twins.map {x y : Except Error (Bound α)} (h : Twins x y) (f : α → β) :
    Twins (x.map fun b => (f b.1, b.2)) (y.map fun b => (f b.1, b.2)) := by
  cases h with
  | ok a hbinds => exact .ok (f a) hbinds
  | error e => exact .error e

end

/-! ## Conditions -/

section
variable {n : Nat} {expr typeId : String} {x y : Value}

theorem markersAfter_congr (n : Nat) {bs cs : List Bind} (h : bs.length = cs.length) :
    markersAfter n bs = markersAfter n cs := by
  induction bs generalizing n cs with
  | nil => rw [List.length_eq_zero_iff.mp h.symm]
  | cons b bs ih =>
    cases cs with
    | nil => cases h
    | cons c cs => rw [markersAfter, markersAfter, ih (n + 1) (Nat.succ.inj h)]

theorem typeIds_scalarBinds (typeId : String) {vs ws : List Value} (h : vs.length = ws.length) :
    typeIds (vs.map (scalarBind typeId)) = typeIds (ws.map (scalarBind typeId)) := by
  have hconst : ∀ us : List Value, typeIds (us.map (scalarBind typeId)) =
      List.replicate us.length typeId := by
    intro us
    rw [typeIds, List.map_map]
    exact List.map_const'
  rw [hconst, hconst, h]

theorem listBind_typeId (typeId : String) (vs : List Value) :
    (listBind typeId vs).typeId = typeId := by
  unfold listBind
  split <;> rfl

theorem comparison_twins (op : Keyword) :
    Twins (.ok (comparison n expr op typeId x)) (.ok (comparison n expr op typeId y)) := .ok _ rfl

theorem equality_twins (op nullTest : Keyword) (h : x.isNull = y.isNull) :
    Twins (.ok (equality n expr op nullTest typeId x))
      (.ok (equality n expr op nullTest typeId y)) := by
  unfold equality
  rw [h]
  split
  · exact .ok _ rfl
  · exact comparison_twins op

theorem ordering_twins (op : Operator) (k : Keyword) (h : x.isNull = y.isNull) :
    Twins (ordering n expr op k typeId x) (ordering n expr op k typeId y) := by
  unfold ordering
  rw [h]
  split
  · exact .error _
  · exact comparison_twins k

theorem any_isNull (vs : List Value) : vs.any Value.isNull = (vs.map Value.isNull).any id := by
  rw [List.any_map]
  rfl

theorem isEmpty_of_length {vs ws : List Value} (h : vs.length = ws.length) :
    vs.isEmpty = ws.isEmpty := by
  cases vs with
  | nil => rw [List.length_eq_zero_iff.mp h.symm]
  | cons v vs =>
    cases ws with
    | nil => cases h
    | cons w ws => rfl

theorem membership_twins (op : Operator) (negated : Bool) {vs ws : List Value}
    (h : vs.map Value.isNull = ws.map Value.isNull) :
    Twins (membership n expr op typeId vs negated) (membership n expr op typeId ws negated) := by
  have hlength : vs.length = ws.length := by
    have hmapped := congrArg List.length h
    rwa [List.length_map, List.length_map] at hmapped
  have hmarkers : markersAfter n (vs.map (scalarBind typeId)) =
      markersAfter n (ws.map (scalarBind typeId)) := by
    apply markersAfter_congr
    rw [List.length_map, List.length_map, hlength]
  unfold membership
  rw [isEmpty_of_length hlength, any_isNull, any_isNull, h]
  dsimp only
  rw [hmarkers]
  split
  · exact .ok _ rfl
  · split
    · exact .error _
    · exact .ok _ (typeIds_scalarBinds typeId hlength)

theorem between_twins {lower lower' upper upper' : Value} (hlower : lower.isNull = lower'.isNull)
    (hupper : upper.isNull = upper'.isNull) :
    Twins (between n expr typeId lower upper) (between n expr typeId lower' upper') := by
  unfold between
  rw [hlower, hupper]
  split
  · exact .error _
  · exact .ok _ rfl

theorem arrayTest_twins (empty negated : Bool) (render : Token → Except PlanningError Tokens)
    {vs ws : List Value} (h : vs.map Value.isNull = ws.map Value.isNull) :
    Twins (arrayTest n typeId vs empty negated render)
      (arrayTest n typeId ws empty negated render) := by
  have hlength : vs.length = ws.length := by
    have hmapped := congrArg List.length h
    rwa [List.length_map, List.length_map] at hmapped
  have hbinds : typeIds [listBind typeId vs] = typeIds [listBind typeId ws] := by
    simp only [typeIds, List.map_cons, List.map_nil, listBind_typeId]
  unfold arrayTest
  rw [isEmpty_of_length hlength]
  split
  · exact .ok _ rfl
  · cases render (marker (n + 1)) with
    | ok ts => exact .ok _ hbinds
    | error e => exact .error _

theorem jsonPathTest_congr (d : Dialect) (h : x.str? = y.str?) :
    jsonPathTest d expr x = jsonPathTest d expr y := by
  have hstr : ∀ v : Value, jsonPathTest d expr v =
      (v.str?.map fun path => lift .planning (d.jsonPathExists expr (JsonPath.segments path))).getD
        (.error (.planning (.invalidOperand .jsonPathExists "a JSON path string"))) := by
    intro v
    cases v <;> rfl
  rw [hstr, hstr, h]

theorem jsonValueTest_twins (d : Dialect)
    (h : (JsonPath.operand? x).isSome = (JsonPath.operand? y).isSome) :
    Twins (jsonValueTest n d expr x) (jsonValueTest n d expr y) := by
  unfold jsonValueTest
  cases hx : JsonPath.operand? x with
  | none =>
    rw [hx] at h
    rw [Option.isSome_eq_false_iff.mp h.symm |> Option.isNone_iff_eq_none.mp]
    exact .error _
  | some a =>
    rw [hx] at h
    obtain ⟨b, hy⟩ := Option.isSome_iff_exists.mp h.symm
    rw [hy]
    dsimp only
    cases d.jsonValueEq expr (marker (n + 1)) with
    | error e => exact .error _
    | ok ts => exact .ok ts (by simp only [typeIds, List.map_cons, List.map_nil])

end

/-- What is written for a condition is fixed by its shape. -/
theorem condition_twins (d : Dialect) (s : Scope) (n : Nat) (negate : Bool) {c e : Condition}
    (h : c.Alike e) : Twins (condition d s n c negate) (condition d s n e negate) := by
  obtain ⟨hproperty, hoperator, hnegated, hvalue, hlower, hupper, hitems, hpath, hform⟩ := h
  unfold condition
  rw [← hproperty, ← hoperator, ← hnegated]
  cases s.scalarType .filter c.property with
  | error err => exact .error err
  | ok typeId =>
    have plain : ∀ {r r' : Except Error (Bound Tokens)}, Twins r r' →
        Twins (r.map (asTest (c.negated ^^ negate))) (r'.map (asTest (c.negated ^^ negate))) :=
      fun hr => hr.map fun ts => Pred.test ts (c.negated ^^ negate)
    simp only [bind, Except.bind]
    cases hop : c.operator <;> dsimp only
    case eq => exact plain (equality_twins _ _ hvalue)
    case ne => exact plain (equality_twins _ _ hvalue)
    case gt | ge | lt | le | like => exact plain (ordering_twins _ _ hvalue)
    case inList | notIn => exact membership_twins _ _ (hitems (by rw [hop]; rfl))
    case range => exact plain (between_twins hlower hupper)
    case arrayContains | arrayNotContains | arrayOverlaps | arrayNotOverlaps =>
      exact arrayTest_twins _ _ _ (hitems (by rw [hop]; rfl))
    case jsonPathExists =>
      refine plain ?_
      rw [jsonPathTest_congr d (hpath hop)]
      exact Twins.of_except rfl
    case jsonValueEq => exact plain (jsonValueTest_twins d (hform hop))

/-! ## Trees -/

theorem Filter.AlikeAll.length_eq {fs gs : List Filter} (h : Filter.AlikeAll fs gs) :
    fs.length = gs.length := by
  cases h with
  | nil => rfl
  | cons _ hs => exact congrArg (· + 1) (Filter.AlikeAll.length_eq hs)

mutual
/-- What is written for a filter is fixed by its shape, wherever it stands. -/
theorem predicate_twins (d : Dialect) (s : Scope) {f g : Filter} (h : f.Alike g) (n : Nat)
    (negate wrap : Bool) :
    Twins (predicate d s n negate wrap f) (predicate d s n negate wrap g) := by
  cases h with
  | cond h =>
    unfold predicate
    exact (condition_twins d s n negate h).map some
  | not h =>
    unfold predicate
    exact predicate_twins d s h n (!negate) wrap
  | group clause hs =>
    unfold predicate
    rw [Filter.AlikeAll.length_eq hs]
    exact (predicates_twins d s hs n negate _).map (grouped _ wrap)
theorem predicates_twins (d : Dialect) (s : Scope) {fs gs : List Filter} (h : Filter.AlikeAll fs gs)
    (n : Nat) (negate wrap : Bool) :
    Twins (predicates d s n negate wrap fs) (predicates d s n negate wrap gs) := by
  cases h with
  | nil => exact .ok [] rfl
  | cons h hs =>
    unfold predicates
    refine (predicate_twins d s h n negate wrap).bind fun p bs cs hbinds => ?_
    dsimp only
    -- The markers of the rest are numbered behind as many binds.
    rw [length_of_typeIds hbinds]
    refine (predicates_twins d s hs _ negate wrap).bind fun ps bs' cs' hrest => ?_
    refine .ok _ ?_
    rw [typeIds_append, typeIds_append, hbinds, hrest]
end

theorem predicate?_twins (d : Dialect) (s : Scope) (wrap : Bool) {filter filter' : Option Filter}
    (h : Option.Rel Filter.Alike filter filter') :
    Twins (predicate? d s wrap filter) (predicate? d s wrap filter') := by
  cases h with
  | none => exact .ok none rfl
  | some h => exact predicate_twins d s h 0 false wrap

theorem writePredicate_twins (d : Dialect) (s : Scope) (n : Nat) {filter filter' : Option Filter}
    (h : Option.Rel Filter.Alike filter filter') :
    Twins (writePredicate d s n filter) (writePredicate d s n filter') := by
  cases h with
  | none => exact .ok none rfl
  | some h => exact predicate_twins d s h n false false

/-! ## Seek pages -/

section
variable (s : Scope) {after after' : Entries Value}

theorem lookup_sought (after : Entries Value) (field : String) :
    (sought after).lookup field = (after.lookup field).map Value.isNull := by
  induction after with
  | nil => rfl
  | cons e after ih =>
    obtain ⟨k, v⟩ := e
    rw [sought, List.map_cons, List.lookup_cons, List.lookup_cons]
    cases field == k with
    | true => rfl
    | false => exact ih

theorem seekTest_twins (h : sought after = sought after') (n : Nat) (op : Keyword)
    (field : String) : Twins (seekTest s after n op field) (seekTest s after' n op field) := by
  have hnull : (after.lookup field).map Value.isNull = (after'.lookup field).map Value.isNull := by
    rw [← lookup_sought, ← lookup_sought, h]
  unfold seekTest
  cases hv : after.lookup field with
  | none =>
    rw [hv] at hnull
    rw [Option.map_eq_none_iff.mp hnull.symm]
    exact .error _
  | some v =>
    rw [hv] at hnull
    obtain ⟨v', hv', hsame⟩ := Option.map_eq_some_iff.mp hnull.symm
    rw [hv']
    dsimp only
    rw [hsame]
    split
    · exact .error _
    · cases s.scalarType .sort field with
      | error e => exact .error e
      | ok typeId => exact .ok _ rfl

theorem seekTests_twins (h : sought after = sought after') (last : SortField)
    (fields : List SortField) (n : Nat) :
    Twins (seekTests s after last n fields) (seekTests s after' last n fields) := by
  induction fields generalizing n with
  | nil =>
    unfold seekTests
    exact (seekTest_twins s h n _ _).bind fun p bs cs hbinds => .ok [p] hbinds
  | cons f fields ih =>
    unfold seekTests
    refine (seekTest_twins s h n _ _).bind fun p bs cs hbinds => ?_
    dsimp only
    rw [length_of_typeIds hbinds]
    refine (ih _).bind fun ps bs' cs' hrest => .ok _ ?_
    rw [typeIds_append, typeIds_append, hbinds, hrest]

theorem seekTerms_twins (h : sought after = sought after') (fields : List SortField) (n : Nat)
    (earlier : List SortField) :
    Twins (seekTerms s after n earlier fields) (seekTerms s after' n earlier fields) := by
  induction fields generalizing n earlier with
  | nil => exact .ok [] rfl
  | cons f fields ih =>
    unfold seekTerms
    refine (seekTests_twins s h f earlier n).bind fun ps bs cs hbinds => ?_
    dsimp only
    rw [length_of_typeIds hbinds]
    refine (ih _ _).bind fun ts bs' cs' hrest => .ok _ ?_
    rw [typeIds_append, typeIds_append, hbinds, hrest]

theorem seek_twins (n : Nat) (sort : List SortField) (hasWhere : Bool) {page page' : Page}
    (h : page.Alike page') :
    Twins (seek s n sort hasWhere page) (seek s n sort hasWhere page') := by
  cases h with
  | offset => exact .ok none rfl
  | @seek limit after after' h =>
    have hempty : after.isEmpty = after'.isEmpty := by
      have hboth : (sought after).isEmpty = (sought after').isEmpty := congrArg List.isEmpty h
      rwa [sought, sought, List.isEmpty_map, List.isEmpty_map] at hboth
    unfold seek
    dsimp only
    rw [hempty]
    split
    · exact .ok none rfl
    · split
      · exact .error _
      · exact (seekTerms_twins s h sort n []).map fun ts =>
          some (Pred.group .or ts (hasWhere && 1 < ts.length))

end

/-! ## Reads -/

/-- Two bases of a statement that are the same up to the values of binds. -/
structure Base.Alike (b b' : Base) : Prop where
  tokens : b.tokens = b'.tokens
  hasWhere : b.hasWhere = b'.hasWhere
  binds : typeIds b.binds = typeIds b'.binds

theorem Base.Alike.restrict {b b' : Base} (h : b.Alike b') (p : Option Pred) {bs cs : List Bind}
    (hbinds : typeIds bs = typeIds cs) : (b.restrict (p, bs)).Alike (b'.restrict (p, cs)) := by
  have hall : typeIds (b.binds ++ bs) = typeIds (b'.binds ++ cs) := by
    rw [typeIds_append, typeIds_append, h.binds, hbinds]
  cases p with
  | none => exact ⟨h.tokens, h.hasWhere, hall⟩
  | some p =>
    refine ⟨?_, rfl, hall⟩
    show spaced [b.tokens, key (if b.hasWhere then .and else .where), p.tokens] =
      spaced [b'.tokens, key (if b'.hasWhere then .and else .where), p.tokens]
    rw [h.tokens, h.hasWhere]

theorem filtered_next (d : Dialect) (s : Scope) (params : Entries Value)
    {filter filter' : Option Filter} (h : Option.Rel Filter.Alike filter filter')
    {f g : Base × Nat → Except Error Statement}
    (hnext : ∀ b b' n, b.Alike b' → Indistinct (f (b, n)) (g (b', n))) :
    Indistinct (filtered d s filter params >>= f) (filtered d s filter' params >>= g) := by
  unfold filtered
  cases base s params with
  | error e => exact .error e
  | ok b =>
    have hb : b.Alike b := ⟨rfl, rfl, rfl⟩
    show Indistinct ((predicate? d s true filter >>= fun p => .ok (b.restrict p, p.2.length)) >>= f)
      ((predicate? d s true filter' >>= fun p => .ok (b.restrict p, p.2.length)) >>= g)
    rw [bind_assoc, bind_assoc]
    refine (predicate?_twins d s true h).next Indistinct.error fun p bs cs hbinds => ?_
    have := hnext _ _ bs.length (hb.restrict p hbinds)
    rwa [← length_of_typeIds hbinds]

theorem select_indistinct (d : Dialect) (s : Scope) (sort : List SortField) (params : Entries Value)
    {filter filter' : Option Filter} {page page' : Page}
    (hfilter : Option.Rel Filter.Alike filter filter') (hpage : page.Alike page') :
    Indistinct (select d s filter sort page params) (select d s filter' sort page' params) := by
  have hclause : d.page page = d.page page' := by
    cases hpage <;> cases d <;> rfl
  refine filtered_next d s params hfilter fun b b' n hb => ?_
  dsimp only
  rw [hb.hasWhere, hclause]
  refine (seek_twins s n sort b'.hasWhere hpage).next Indistinct.error fun p bs cs hbinds => ?_
  obtain ⟨htokens, -, hall⟩ := hb.restrict p hbinds
  refine .ok ?_ rfl hall
  show Statement.text ⟨spaced ([(b.restrict (p, bs)).tokens] ++ _ ++ _), _, _⟩ = _
  rw [htokens]
  rfl

theorem count_indistinct (d : Dialect) (s : Scope) (params : Entries Value)
    {filter filter' : Option Filter} (hfilter : Option.Rel Filter.Alike filter filter') :
    Indistinct (count d s filter params) (count d s filter' params) := by
  refine filtered_next d s params hfilter fun b b' n hb => ?_
  refine .ok ?_ rfl hb.binds
  show Statement.text ⟨spaced [_, _, _, parenthesized b.tokens, _], _, _⟩ = _
  rw [hb.tokens]
  rfl

/-! ## Writes -/

section
variable {cols cols' : List ColumnBind} (h : cols.map ColumnBind.shape = cols'.map ColumnBind.shape)
include h

theorem names_of_shapes : cols.map (·.column) = cols'.map (·.column) := by
  have hnames := congrArg (List.map Prod.fst) h
  rwa [List.map_map, List.map_map] at hnames

theorem typeIds_of_shapes :
    typeIds (cols.map (·.bind)) = typeIds (cols'.map (·.bind)) := by
  have hids := congrArg (List.map Prod.snd) h
  rw [List.map_map, List.map_map] at hids
  rw [typeIds, typeIds, List.map_map, List.map_map]
  exact hids

theorem isEmpty_of_shapes : cols.isEmpty = cols'.isEmpty := by
  rw [← List.isEmpty_map (f := ColumnBind.shape), h, List.isEmpty_map]

end

theorem setItems_congr (n : Nat) {sets sets' : List ColumnBind}
    (h : sets.map (·.column) = sets'.map (·.column)) : setItems n sets = setItems n sets' := by
  induction sets generalizing n sets' with
  | nil => rw [List.map_eq_nil_iff.mp h.symm]
  | cons c sets ih =>
    cases sets' with
    | nil => cases h
    | cons c' sets' =>
      obtain ⟨hcolumn, hrest⟩ := List.cons.inj h
      dsimp only at hcolumn
      rw [setItems, setItems, hcolumn, ih (n + 1) hrest]

theorem insertTokens_congr {w w' : Insert} (h : w.Alike w') : insertTokens w = insertTokens w' := by
  have hmarkers : markersAfter 0 (w.columns.map (·.bind)) =
      markersAfter 0 (w'.columns.map (·.bind)) :=
    markersAfter_congr 0 (length_of_typeIds (typeIds_of_shapes h.columns))
  unfold insertTokens Insert.columnNames
  rw [isEmpty_of_shapes h.columns, names_of_shapes h.columns, hmarkers, h.table]

theorem insert_indistinct (d : Dialect) {w w' : Insert} (h : w.Alike w') :
    Indistinct (lift .planning (insert d w)) (lift .planning (insert d w')) := by
  unfold insert
  rw [insertTokens_congr h, h.returning]
  cases insertTokens w' with
  | error e => exact .error _
  | ok ts => exact .ok rfl rfl (typeIds_of_shapes h.columns)

theorem upsert_indistinct (d : Dialect) {w w' : Insert} (h : w.Alike w')
    (conflict updates : List String) :
    Indistinct (lift .planning (upsert d ⟨w, conflict, updates⟩))
      (lift .planning (upsert d ⟨w', conflict, updates⟩)) := by
  have hupsert : ∀ ts,
      d.upsert ts ⟨w, conflict, updates⟩ = d.upsert ts ⟨w', conflict, updates⟩ := by
    intro ts
    unfold Dialect.upsert
    dsimp only
    rw [h.table, h.returning]
  unfold upsert
  dsimp only
  rw [insertTokens_congr h]
  cases insertTokens w' with
  | error e => exact .error _
  | ok ts =>
    simp only [bind, Except.bind]
    rw [hupsert]
    cases d.upsert ts ⟨w', conflict, updates⟩ with
    | error e => exact .error _
    | ok r => exact .ok rfl rfl (typeIds_of_shapes h.columns)

theorem update_indistinct (d : Dialect) (s : Scope) (table : String) {sets sets' : List ColumnBind}
    (hsets : sets.map ColumnBind.shape = sets'.map ColumnBind.shape)
    {filter filter' : Option Filter} (hfilter : Option.Rel Filter.Alike filter filter') :
    Indistinct (update d s ⟨table, sets, filter⟩) (update d s ⟨table, sets', filter'⟩) := by
  have hids := typeIds_of_shapes hsets
  have hlength : sets.length = sets'.length := by
    have hmapped := congrArg List.length hsets
    rwa [List.length_map, List.length_map] at hmapped
  unfold update
  dsimp only
  rw [isEmpty_of_shapes hsets, hlength, setItems_congr 0 (names_of_shapes hsets)]
  cases sets'.isEmpty with
  | true => exact .error _
  | false =>
    refine (writePredicate_twins d s sets'.length hfilter).next Indistinct.error
      fun p bs cs hbinds => .ok rfl rfl ?_
    rw [typeIds_append, typeIds_append, hids, hbinds]

theorem delete_indistinct (d : Dialect) (s : Scope) (table : String)
    {filter filter' : Option Filter} (hfilter : Option.Rel Filter.Alike filter filter') :
    Indistinct (delete d s ⟨table, filter⟩) (delete d s ⟨table, filter'⟩) :=
  (writePredicate_twins d s 0 hfilter).next Indistinct.error fun _ _ _ hbinds => .ok rfl rfl hbinds

theorem write_indistinct (d : Dialect) (s : Scope) {w w' : Write} (h : w.Alike w') :
    Indistinct (write d s w) (write d s w') := by
  cases h with
  | insert h => exact insert_indistinct d h
  | update table hsets hfilter => exact update_indistinct d s table hsets hfilter
  | delete table hfilter => exact delete_indistinct d s table hfilter
  | upsert h conflict updates => exact upsert_indistinct d h conflict updates

/-! ## Statements -/

/-- A statement shows of the values it is about no more than their types: in filters, behind a seek
page and in the columns of a write others of the same shape give the same text. -/
theorem values_stay_hidden (d : Dialect) (s : Scope) {filter filter' : Option Filter}
    {page page' : Page} {w w' : Write} (hfilter : Option.Rel Filter.Alike filter filter')
    (hpage : page.Alike page') (hwrite : w.Alike w') (sort : List SortField)
    (params : Entries Value) :
    Indistinct (select d s filter sort page params) (select d s filter' sort page' params) ∧
    Indistinct (count d s filter params) (count d s filter' params) ∧
    Indistinct (write d s w) (write d s w') :=
  ⟨select_indistinct d s sort params hfilter hpage, count_indistinct d s params hfilter,
    write_indistinct d s hwrite⟩

def namedSince (name : String) (age : Int32) : Filter :=
  .group .and [.cond (.of "name" .inList (.list [.str name, .str "Ann"])),
    .not (.cond (.of "age" .lt (.int age)))]

theorem namedSince_alike (name name' : String) (age age' : Int32) :
    (namedSince name age).Alike (namedSince name' age') :=
  .group .and (.cons (.cond ⟨rfl, rfl, rfl, rfl, rfl, rfl, fun _ => rfl, nofun, nofun⟩)
    (.cons (.not (.cond ⟨rfl, rfl, rfl, rfl, rfl, rfl, nofun, nofun, nofun⟩)) .nil))

def setName (name : String) : Write := .update ⟨"people", [⟨"name", ⟨.str name, "string"⟩⟩], none⟩

theorem quoted_name_hidden :
    ∃ st st', select .postgres people (some (namedSince "Bob" 17)) [⟨"age", .asc⟩]
        (.seek 2 [("age", .int 20)]) [] = .ok st ∧
      select .postgres people (some (namedSince "' OR 1 = 1 --" 3)) [⟨"age", .asc⟩]
        (.seek 2 [("age", .int 5)]) [] = .ok st' ∧
      st.text = st'.text ∧ typeIds st.binds = typeIds st'.binds ∧
      Indistinct (write .postgres people (setName "Bob"))
        (write .postgres people (setName "' OR 1 = 1 --")) := by
  have hpage : (Page.seek 2 [("age", .int 20)]).Alike (.seek 2 [("age", .int 5)]) := .seek 2 rfl
  have hwrite : (setName "Bob").Alike (setName "' OR 1 = 1 --") := .update "people" rfl .none
  obtain ⟨hselect, -, hhidden⟩ := values_stay_hidden .postgres people
    (.some (namedSince_alike "Bob" "' OR 1 = 1 --" 17 3)) hpage hwrite [⟨"age", .asc⟩] []
  refine ⟨_, _, rfl, rfl, ?_, ?_, hhidden⟩
  · cases hselect with
    | ok text _ _ => exact text
  · cases hselect with
    | ok _ _ binds => exact binds

end Sql
end Polystore
