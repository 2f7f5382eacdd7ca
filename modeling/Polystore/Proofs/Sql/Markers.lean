import Polystore.Proofs.Entries
import Polystore.Proofs.Sql.Scanning
import Polystore.Proofs.Sql.Where

/-! # Markers of compiled statements

In a statement whose model texts are tidy the scanner finds the parameters of the native text in
front, and behind them the markers that the compiler has numbered, one for each of its binds. -/

namespace Polystore.Sql
set_option autoImplicit false

open Tokens (key spaced commaSeparated parenthesized join)

/-! ## Tidy models -/

/-- The texts that a mapping puts into statements. -/
structure TidyMapping (m : Mapping) : Prop where
  target : ∀ t, m.target? = some t → Tidy t
  children : ∀ child c, (child, c) ∈ m.fields →
    Tidy child ∧ ∀ t, Mapping.target? c = some t → Tidy t

/-- The texts that a model puts into statements: names and targets without markers and with an even
number of quotes, and native texts with an even number of quotes. -/
structure TidyScope (s : Scope) : Prop where
  source : ∀ t, s.entity.source? = some t → Tidy t
  fields : ∀ name f, (name, f) ∈ s.entity.fields → Tidy name
  mapping : ∀ path m, (path, m) ∈ s.view.mapping → TidyMapping m
  native : ∀ q, s.view.native = some q →
    (∀ t, q.sqlText? = some t → t.toList.count '\'' % 2 = 0) ∧
      ∀ t, q.projectionText? = some t → t.toList.count '\'' % 2 = 0

structure TidyInsert (w : Insert) : Prop where
  table : Tidy w.table
  columns : ∀ c ∈ w.columns, Tidy c.column
  returning : ∀ c ∈ w.returning, Tidy c

inductive TidyWrite : Write → Prop
  | insert {w : Insert} (h : TidyInsert w) : TidyWrite (.insert w)
  | update {w : Update} (ht : Tidy w.table) (hs : ∀ c ∈ w.sets, Tidy c.column) :
    TidyWrite (.update w)
  | delete {w : Delete} (ht : Tidy w.table) : TidyWrite (.delete w)
  | upsert {w : Upsert} (h : TidyInsert w.insert) (hc : ∀ c ∈ w.conflict, Tidy c)
    (hu : ∀ c ∈ w.updates, Tidy c) : TidyWrite (.upsert w)

theorem isPlain_toLower {c : Char} (h : Text.isAlphanumeric c = true) : isPlain c.toLower = true := by
  have hne : ∀ d : Char, Text.isAlphanumeric d = false → c ≠ d := by
    intro d hd he
    rw [he, hd] at h
    cases h
  rw [isPlain, Bool.and_eq_true, bne_iff_ne, bne_iff_ne]
  delta Char.toLower
  split
  · next hc =>
    -- A small letter: 32 behind a capital one.
    have hle := UInt32.le_iff_toNat_le.mp hc.1
    have hge := UInt32.le_iff_toNat_le.mp hc.2
    have hsum : (c.val + ('a'.val - 'A'.val)).toNat = c.val.toNat + 32 := by
      rw [UInt32.toNat_add]
      have hA : ('A'.val).toNat = 65 := rfl
      have hZ : ('Z'.val).toNat = 90 := rfl
      have hd : ('a'.val - 'A'.val).toNat = 32 := rfl
      omega
    have hA : ('A'.val).toNat = 65 := rfl
    constructor
    · intro he
      have hv := congrArg (fun c : Char => c.val.toNat) he
      simp only [hsum] at hv
      have hq : ('\''.val).toNat = 39 := rfl
      omega
    · intro he
      have hv := congrArg (fun c : Char => c.val.toNat) he
      simp only [hsum] at hv
      have hq : (':'.val).toNat = 58 := rfl
      omega
  · exact ⟨hne _ (by decide), hne _ (by decide)⟩

theorem isPlain_of_mem_snakeFrom {whole cs : List Char} {pos : Nat} {start : Bool} {c : Char}
    (h : c ∈ Text.snakeFrom whole pos start cs) : isPlain c = true := by
  have hletter : ∀ d, ¬ (!Text.isAlphanumeric d) = true → isPlain d.toLower = true := by
    intro d hd
    rw [Bool.not_eq_true, Bool.not_eq_false'] at hd
    exact isPlain_toLower hd
  fun_induction Text.snakeFrom whole pos start cs with
  | case1 => cases h
  | case2 _ _ _ _ _ ih => exact ih h
  | case3 _ _ _ _ _ _ _ ih =>
    rcases List.mem_cons.mp h with rfl | h
    · decide
    · exact ih h
  | case4 _ _ d _ _ hd _ ih =>
    rcases List.mem_cons.mp h with rfl | h
    · decide
    · rcases List.mem_cons.mp h with rfl | h
      · exact hletter d hd
      · exact ih h
  | case5 _ _ d _ _ hd _ ih =>
    rcases List.mem_cons.mp h with rfl | h
    · exact hletter d hd
    · exact ih h

theorem isPlain_of_mem_defaultColumn {path : String} {c : Char}
    (h : c ∈ (defaultColumn path).toList) : isPlain c = true := by
  have hsnake : ∀ t : String, c ∈ (Text.snakeCase t).toList → isPlain c = true := by
    intro t ht
    rw [Text.snakeCase, String.toList_ofList] at ht
    exact isPlain_of_mem_snakeFrom ht
  unfold defaultColumn at h
  generalize Text.split '.' path = ts at h
  induction ts with
  | nil =>
    rw [List.map_nil, String.intercalate_nil] at h
    cases h
  | cons t ts ih =>
    cases ts with
    | nil =>
      rw [List.map_cons, List.map_nil, String.intercalate_singleton] at h
      exact hsnake t h
    | cons u us =>
      rw [List.map_cons, List.map_cons, String.intercalate_cons_cons, String.toList_append,
        String.toList_append] at h
      rcases List.mem_append.mp h with h | h
      · rcases List.mem_append.mp h with h | h
        · exact hsnake t h
        · cases List.mem_singleton.mp h
          decide
      · exact ih h

/-- Whatever a path stands for, mapped or not, leaves the scanner as it was. -/
theorem yields_refPath {v : View} (h : ∀ path m, (path, m) ∈ v.mapping → TidyMapping m)
    (path : String) : Yields (v.refPath path).toList [] := by
  unfold View.refPath
  cases he : v.explicitRef? path with
  | none => exact yields_plain (List.all_eq_true.mpr fun c hc => isPlain_of_mem_defaultColumn hc)
  | some t =>
    refine Tidy.yields ?_
    unfold View.explicitRef? at he
    split at he
    · next t' ht =>
      cases he
      obtain ⟨m, hm, ht⟩ := Option.bind_eq_some_iff.mp ht
      exact (h path m (Entries.mem_of_lookup hm)).target t ht
    · obtain ⟨⟨parent, child⟩, -, he⟩ := Option.bind_eq_some_iff.mp he
      obtain ⟨m, hm, he⟩ := Option.bind_eq_some_iff.mp he
      obtain ⟨c, hc, ht⟩ := Option.bind_eq_some_iff.mp he
      exact ((h parent m (Entries.mem_of_lookup hm)).children child c (Entries.mem_of_lookup hc)).2 t ht

/-! ## Tokens -/

theorem chars_append (ts us : Tokens) :
    Tokens.chars (ts ++ us) = Tokens.chars ts ++ Tokens.chars us := List.flatMap_append

theorem yields_nil : Yields [] [] := fun _ _ => rfl

theorem chars_singleton (t : Token) : Tokens.chars [t] = t.chars := List.append_nil _

theorem yields_key (k : Keyword) : Yields (Tokens.chars (key k)) [] := by
  have h : k.text.toList.all isPlain = true := by cases k <;> decide
  rw [key, chars_singleton]
  exact yields_plain h

theorem yields_ident {name : String} (h : Tidy name) : Yields (Tokens.chars [.ident name]) [] := by
  rw [chars_singleton]
  exact h.ident

theorem yields_raw {text : String} {ns : List (List Char)} (h : Yields text.toList ns) :
    Yields (Tokens.chars [.raw text]) ns := by
  rw [chars_singleton]
  exact h

theorem yields_one_marker (n : Nat) : Yields (Tokens.chars [marker n]) [markerName n] := by
  rw [chars_singleton, marker, Token.chars, String.toList_append]
  exact yields_marker n

section
variable {sep ts us : Tokens} {tss : List Tokens} {ns ms : List (List Char)}

theorem Yields.join_cons (hsep : separates (Tokens.chars sep) = true)
    (h : Yields (Tokens.chars ts) ns) (k : Yields (Tokens.chars (join sep tss)) ms) :
    Yields (Tokens.chars (join sep (ts :: tss))) (ns ++ ms) := by
  cases tss with
  | nil =>
    have hm : ms = [] := k.found.symm.trans yields_nil.found
    rw [hm, List.append_nil]
    exact h
  | cons us tss =>
    have hjoin : join sep (ts :: us :: tss) = ts ++ (sep ++ join sep (us :: tss)) :=
      List.append_assoc ts sep _
    rw [hjoin, chars_append, chars_append]
    exact h.separated hsep k

theorem Yields.spaced_cons (h : Yields (Tokens.chars ts) ns)
    (k : Yields (Tokens.chars (spaced tss)) ms) :
    Yields (Tokens.chars (spaced (ts :: tss))) (ns ++ ms) := h.join_cons (by decide) k

theorem Yields.spaced_one (h : Yields (Tokens.chars ts) ns) : Yields (Tokens.chars (spaced [ts])) ns := h

theorem Yields.comma_cons (h : Yields (Tokens.chars ts) ns)
    (k : Yields (Tokens.chars (commaSeparated tss)) ms) :
    Yields (Tokens.chars (commaSeparated (ts :: tss))) (ns ++ ms) := h.join_cons (by decide) k

theorem yields_join (hsep : separates (Tokens.chars sep) = true)
    (h : ∀ ts ∈ tss, Yields (Tokens.chars ts) []) : Yields (Tokens.chars (join sep tss)) [] := by
  induction tss with
  | nil => exact yields_nil
  | cons ts tss ih =>
    exact (h ts List.mem_cons_self).join_cons hsep
      (ih fun us hus => h us (List.mem_cons_of_mem _ hus))

theorem yields_spaced (h : ∀ ts ∈ tss, Yields (Tokens.chars ts) []) :
    Yields (Tokens.chars (spaced tss)) [] := yields_join (by decide) h

theorem yields_commaSeparated (h : ∀ ts ∈ tss, Yields (Tokens.chars ts) []) :
    Yields (Tokens.chars (commaSeparated tss)) [] := yields_join (by decide) h

theorem Yields.parenthesized (h : Yields (Tokens.chars ts) ns) :
    Yields (Tokens.chars (parenthesized ts)) ns := by
  intro rest hr
  have hcut : Tokens.chars (Tokens.parenthesized ts) ++ rest =
      ['('] ++ (Tokens.chars ts ++ ([')'] ++ rest)) := by
    rw [Tokens.parenthesized, chars_append, List.append_assoc]
    rfl
  rw [hcut, found_plain (by decide), h _ (breaks_separator (show separates [')'] = true by decide) rest),
    found_plain (by decide)]

end

/-! ## Numbered markers -/

def markerNames (n k : Nat) : List (List Char) := (List.range' (n + 1) k).map markerName

theorem markerNames_add (n j k : Nat) :
    markerNames n (j + k) = markerNames n j ++ markerNames (n + j) k := by
  rw [markerNames, ← List.range'_append_1, List.map_append, Nat.add_right_comm]
  rfl

theorem markerNames_succ (n k : Nat) :
    markerNames n (k + 1) = markerName (n + 1) :: markerNames (n + 1) k := by
  rw [Nat.add_comm k 1, markerNames_add]
  rfl

theorem yields_markersAfter (n : Nat) (bs : List Bind) :
    Yields (Tokens.chars (commaSeparated (markersAfter n bs))) (markerNames n bs.length) := by
  induction bs generalizing n with
  | nil => exact yields_nil
  | cons b bs ih =>
    rw [List.length_cons, markerNames_succ]
    exact (yields_one_marker (n + 1)).comma_cons (ih (n + 1))

theorem yields_setItems {cs : List ColumnBind} (h : ∀ c ∈ cs, Tidy c.column) (n : Nat) :
    Yields (Tokens.chars (commaSeparated (setItems n cs))) (markerNames n cs.length) := by
  induction cs generalizing n with
  | nil => exact yields_nil
  | cons c cs ih =>
    rw [List.length_cons, markerNames_succ]
    have hitem : Yields (Tokens.chars (spaced [[.ident c.column], key .eq, [marker (n + 1)]]))
        [markerName (n + 1)] :=
      (yields_ident (h c List.mem_cons_self)).spaced_cons
        ((yields_key .eq).spaced_cons ((yields_one_marker (n + 1)).spaced_one))
    exact hitem.comma_cons (ih (fun d hd => h d (List.mem_cons_of_mem _ hd)) (n + 1))

/-! ## Predicates -/

section
variable {view : View} {n : Nat} (hv : ∀ path, Yields (view.refPath path).toList [])
include hv

theorem Leaf.yields {ts : Tokens} {bs : List Bind} {e : Expr} (h : Leaf view n ts bs e) :
    Yields (Tokens.chars ts) (markerNames n bs.length) := by
  have hraw : ∀ path, Yields (Tokens.chars [.raw (view.refPath path)]) [] := fun path =>
    yields_raw (hv path)
  have hbinary : ∀ (path op : String) (t : Token) (ns : List (List Char)),
      op.toList.all isPlain = true → Yields (Tokens.chars [t]) ns →
      Yields (Tokens.chars (Dialect.binary (view.refPath path) op t)) ns := by
    intro path op t ns hop ht
    have hop : Yields (Tokens.chars [.raw op]) [] :=
      yields_raw (yields_plain hop)
    exact (hraw path).spaced_cons (hop.spaced_cons ht.spaced_one)
  have hlist := fun bs : List Bind => (yields_markersAfter n bs).parenthesized
  cases h with
  | constant b =>
    rw [chars_singleton]
    exact yields_plain (by cases b <;> decide)
  | isNull path => exact (hraw path).spaced_cons ((yields_key .isNull).spaced_one)
  | isNotNull path => exact (hraw path).spaced_cons ((yields_key .isNotNull).spaced_one)
  | compare path op b _ =>
    exact (hraw path).spaced_cons ((yields_key op).spaced_cons
      ((yields_one_marker (n + 1)).spaced_one))
  | between path lo hi =>
    exact (hraw path).spaced_cons ((yields_key .between).spaced_cons
      ((yields_one_marker (n + 1)).spaced_cons ((yields_key .and).spaced_cons
        ((yields_one_marker (n + 2)).spaced_one))))
  | among path bs _ =>
    exact (hraw path).spaced_cons ((yields_key .in).spaced_cons (hlist bs).spaced_one)
  | outside path bs _ =>
    exact (hraw path).spaced_cons ((yields_key .not).spaced_cons
      ((yields_key .in).spaced_cons (hlist bs).spaced_one))
  | native path op b hop =>
    refine hbinary path op _ _ ?_ (yields_one_marker (n + 1))
    rcases hop with rfl | rfl
    · decide
    · decide
  | present path text =>
    have hlit : Yields (Tokens.chars [.litString text]) [] := by
      rw [chars_singleton]
      exact yields_literal text
    exact (hbinary path "#>" _ _ (by decide) hlit).spaced_cons
      ((yields_key .isNotNull).spaced_one)

end

mutual
/-- The markers of a predicate are those behind `n`, one for each of its binds. -/
theorem Stated.yields {view : View} (hv : ∀ path, Yields (view.refPath path).toList []) {n : Nat}
    {alone : Bool} {p : Pred} {bs : List Bind} {e : Expr} (h : Stated view n alone p bs e) :
    Yields (Tokens.chars p.tokens) (markerNames n bs.length) := by
  match h with
  | .leaf h =>
    rw [Pred.tokens, if_neg Bool.false_ne_true]
    exact h.yields hv
  | .negated h =>
    rw [Pred.tokens, if_pos rfl]
    exact (yields_key .not).spaced_cons (((h.yields hv).parenthesized).spaced_one)
  | @Stated.group _ _ _ wrapped c _ _ _ _ h _ =>
    have hs := h.yields hv c
    rw [Pred.tokens]
    cases wrapped with
    | true => exact hs.parenthesized
    | false => exact hs
theorem StatedAll.yields {view : View} (hv : ∀ path, Yields (view.refPath path).toList []) {n : Nat}
    {alone : Bool} {ps : List Pred} {bs : List Bind} {es : List Expr}
    (h : StatedAll view n alone ps bs es) (c : Clause) :
    Yields (Tokens.chars (join (Pred.clauseSeparator c) (Pred.tokensAll ps)))
      (markerNames n bs.length) := by
  match h with
  | .nil => exact yields_nil
  | @StatedAll.cons _ _ _ _ _ bs cs _ _ h hs =>
    rw [List.length_append, markerNames_add]
    exact (h.yields hv).join_cons (by cases c <;> decide) (hs.yields hv c)
end

/-! ## What statements begin with -/

theorem Tidy.child {name child : String} (h : Tidy name) (k : Tidy child) :
    Tidy (name ++ "." ++ child) := by
  have hsep : separates ".".toList = true := by decide
  refine Tidy.of_yields ?_ ?_
  · have hh := h.even
    have hk := k.even
    rw [String.toList_append, String.toList_append, List.count_append, List.count_append,
      show (".".toList).count '\'' = 0 by decide]
    omega
  · rw [String.toList_append, String.toList_append, List.append_assoc]
    exact h.yields.separated hsep k.yields

theorem yields_identList {columns : List String} (h : ∀ c ∈ columns, Tidy c) :
    Yields (Tokens.chars (identList columns)) [] := by
  refine yields_commaSeparated fun ts hts => ?_
  obtain ⟨c, hc, rfl⟩ := List.mem_map.mp hts
  exact yields_ident (h c hc)

theorem yields_selectItem {expr name : String} (h : Yields expr.toList []) (k : Tidy name) :
    Yields (Tokens.chars (selectItem expr name)) [] :=
  (yields_raw h).spaced_cons ((yields_key .as).spaced_cons (yields_ident k).spaced_one)

section
variable {s : Scope} (hs : TidyScope s)
include hs

theorem yields_fieldItems {name : String} {f : Field} (hf : (name, f) ∈ s.entity.fields)
    {ts : Tokens} (h : ts ∈ fieldItems s.view name f) : Yields (Tokens.chars ts) [] := by
  have hname := hs.fields name f hf
  unfold fieldItems at h
  split at h
  · split at h
    · cases h
    · next m hm =>
      obtain ⟨⟨child, c⟩, hc, ht⟩ := List.mem_filterMap.mp h
      obtain ⟨col, hcol, rfl⟩ := Option.map_eq_some_iff.mp ht
      obtain ⟨hchild, htarget⟩ := (hs.mapping name m (Entries.mem_of_lookup hm)).children child c hc
      exact yields_selectItem (htarget col hcol).yields (hname.child hchild)
  · cases List.mem_singleton.mp h
    exact yields_selectItem (yields_refPath hs.mapping name) hname

theorem yields_derivedSelect {ts : Tokens} (h : derivedSelect s = .ok ts) :
    Yields (Tokens.chars ts) [] := by
  obtain ⟨table, htable, rfl⟩ := map_eq_ok.mp h
  have hitems : ∀ us ∈ selectItems s, Yields (Tokens.chars us) [] := by
    intro us hus
    unfold selectItems at hus
    simp only at hus
    split at hus
    · cases List.mem_singleton.mp hus
      exact yields_key .star
    · obtain ⟨⟨name, f⟩, hf, hus⟩ := List.mem_flatMap.mp hus
      exact yields_fieldItems hs hf hus
  have hsource : Tidy table := by
    unfold Scope.source at htable
    split at htable
    · next t ht =>
      cases htable
      exact hs.source _ ht
    · cases htable
  exact (yields_key .select).spaced_cons ((yields_commaSeparated hitems).spaced_cons
    ((yields_key .from).spaced_cons (yields_ident hsource).spaced_one))

omit hs in
theorem even_nativeText {base projection : String} (hb : base.toList.count '\'' % 2 = 0)
    (hp : projection.toList.count '\'' % 2 = 0) :
    (nativeText base projection).1.toList.count '\'' % 2 = 0 := by
  have hselect : ("SELECT ".toList).count '\'' = 0 := by decide
  have hfrom : (" FROM (".toList).count '\'' = 0 := by decide
  have hclose : (") ".toList).count '\'' = 0 := by decide
  have halias : (baseAlias.toList).count '\'' = 0 := by decide
  have hblank : (" ".toList).count '\'' = 0 := by decide
  unfold nativeText
  simp only
  split
  · split
    · exact hb
    · simp only [String.toList_append, List.count_append, hselect, hfrom, hclose, halias]
      omega
  · simp only [String.toList_append, List.count_append, hselect, hblank]
    omega

end

/-- The parameters of the native text of a view, in order of appearance. -/
def nativeMarkers (s : Scope) : List Marker :=
  match s.view.native with
  | none => []
  | some q => scan (nativeText (q.sqlText?.getD "") (q.projectionText?.getD "*")).1

def Marker.chars (m : Marker) : List Char := m.name.toList

theorem found_eq_scan (sql : String) : found false sql.toList = (scan sql).map Marker.chars := by
  have h := congrArg (List.map String.toList) (names_scan sql)
  rw [List.map_map, List.map_map] at h
  have hid : String.toList ∘ String.ofList = id := funext fun cs => String.toList_ofList
  rw [hid, List.map_id] at h
  exact h.symm

/-- Some binds in front, with names of their own, and behind them those the compiler numbers. -/
structure Base.Numbered (b : Base) (names : List (List Char)) (front own : List Bind) : Prop where
  binds : b.binds = front ++ own
  yields : Yields (Tokens.chars b.tokens) (names ++ markerNames 0 own.length)

theorem Base.Numbered.restrict {b : Base} {names : List (List Char)} {front own : List Bind}
    (hb : b.Numbered names front own) {view : View}
    (hv : ∀ path, Yields (view.refPath path).toList []) {alone : Bool} {r : Bound (Option Pred)}
    {meaning : (Test → Truth) → Option Truth} (hr : Renders view own.length alone r meaning) :
    (b.restrict r).Numbered names front (own ++ r.2) := by
  obtain ⟨p, bs⟩ := r
  have hbinds : b.binds ++ bs = front ++ (own ++ bs) := by rw [hb.binds, List.append_assoc]
  cases p with
  | none =>
    refine ⟨hbinds, ?_⟩
    rw [show bs = [] from hr.1, List.append_nil]
    exact hb.yields
  | some p =>
    obtain ⟨e, he, -⟩ := hr
    have hp := he.yields hv
    rw [← Nat.zero_add own.length] at hp
    refine ⟨hbinds, ?_⟩
    rw [List.length_append, markerNames_add, ← List.append_assoc]
    exact hb.yields.spaced_cons ((yields_key _).spaced_cons (Yields.spaced_one hp))

theorem base_numbered {s : Scope} (hs : TidyScope s) {params : Entries Value} {b : Base}
    (h : base s params = .ok b) :
    ∃ front, bindsOf params (nativeMarkers s) = .ok front ∧
      b.Numbered ((nativeMarkers s).map Marker.chars) front [] := by
  unfold base at h
  unfold nativeMarkers
  cases hn : s.view.native with
  | none =>
    rw [hn] at h
    obtain ⟨ts, hts, rfl⟩ := map_eq_ok.mp h
    exact ⟨[], rfl, rfl, yields_derivedSelect hs (lift_eq_ok.mp hts)⟩
  | some q =>
    rw [hn] at h
    simp only [nativeBase] at h
    obtain ⟨hsql, hproj⟩ := hs.native q hn
    split at h
    · cases h
    · next base hbase =>
      have hb := (Option.filter_eq_some_iff.mp hbase).1
      obtain ⟨front, hfront, rfl⟩ := map_eq_ok.mp h
      have hp : (q.projectionText?.getD "*").toList.count '\'' % 2 = 0 := by
        cases hq : q.projectionText? with
        | none => decide
        | some t => exact hproj t hq
      simp only [hb, Option.getD_some]
      refine ⟨front, lift_eq_ok.mp hfront, (List.append_nil front).symm, ?_⟩
      rw [show markerNames 0 ([] : List Bind).length = [] from rfl, List.append_nil, ← found_eq_scan]
      exact yields_raw (yields_of_even (even_nativeText (hsql base hb) hp))

/-! ## Statements -/

def numberedNames (k : Nat) : List String := (List.range' 1 k).map fun n => "b" ++ n.repr

/-- The scanner finds a marker for each bind: first the given ones, bound to their parameters, and
behind them the numbered ones. -/
def Statement.Numbered (st : Statement) (params : Entries Value) (native : List Marker) : Prop :=
  ∃ front own, st.binds = front ++ own ∧ bindsOf params native = .ok front ∧
    (scan st.text).map (·.name) = native.map (·.name) ++ numberedNames own.length

theorem ofList_markerNames (k : Nat) : (markerNames 0 k).map String.ofList = numberedNames k := by
  rw [markerNames, numberedNames, List.map_map]
  refine List.map_congr_left fun n _ => ?_
  have h : markerName n = ("b" ++ n.repr).toList := by
    rw [String.toList_append]
    rfl
  rw [Function.comp_apply, h, String.ofList_toList]

theorem ofList_chars (ms : List Marker) : (ms.map Marker.chars).map String.ofList = ms.map (·.name) := by
  rw [List.map_map]
  exact List.map_congr_left fun m _ => String.ofList_toList

theorem Yields.numbered {st : Statement} {params : Entries Value} (native : List Marker)
    (front own : List Bind)
    (h : Yields (Tokens.chars st.tokens) (native.map Marker.chars ++ markerNames 0 own.length))
    (hbinds : st.binds = front ++ own) (hf : bindsOf params native = .ok front) :
    st.Numbered params native := by
  refine ⟨front, own, hbinds, hf, ?_⟩
  rw [names_scan, Statement.text, Tokens.text, String.toList_ofList, h.found, List.map_append,
    ofList_chars, ofList_markerNames]

theorem length_bindsOf {params : Entries Value} {ms : List Marker} {bs : List Bind}
    (h : bindsOf params ms = .ok bs) : bs.length = ms.length := by
  induction ms generalizing bs with
  | nil =>
    cases h
    rfl
  | cons m ms ih =>
    unfold bindsOf at h
    split at h
    · cases h
    · obtain ⟨cs, hcs, rfl⟩ := map_eq_ok.mp h
      rw [List.length_cons, List.length_cons, ih hcs]

theorem Statement.Numbered.length_scan {st : Statement} {params : Entries Value}
    {native : List Marker} (h : st.Numbered params native) :
    (scan st.text).length = st.binds.length := by
  obtain ⟨front, own, hbinds, hf, hscan⟩ := h
  have hl := congrArg List.length hscan
  rw [List.length_map, List.length_append, List.length_map, numberedNames, List.length_map,
    List.length_range'] at hl
  rw [hbinds, List.length_append, length_bindsOf hf, hl]

theorem yields_clampedInt (n : UInt64) : Yields (Tokens.chars (clampedInt n)) [] := by
  rw [clampedInt, chars_singleton]
  exact yields_int _

theorem yields_page (d : Dialect) (page : Page) : Yields (Tokens.chars (d.page page)) [] := by
  have hfetch : ∀ limit, ∀ ts ∈ fetchFirst limit, Yields (Tokens.chars ts) [] := by
    intro limit ts hts
    simp only [fetchFirst, List.mem_cons, List.not_mem_nil, or_false] at hts
    rcases hts with rfl | rfl | rfl | rfl | rfl
    · exact yields_key .fetch
    · exact yields_key .first
    · exact yields_clampedInt limit
    · exact yields_key .rows
    · exact yields_key .only
  cases d with
  | ansi =>
    cases page with
    | seek limit after => exact yields_spaced (hfetch limit)
    | offset offset limit =>
      exact (yields_key .offset).spaced_cons ((yields_clampedInt offset).spaced_cons
        ((yields_key .rows).spaced_cons (yields_spaced (hfetch limit))))
  | postgres =>
    cases page with
    | seek limit after =>
      exact (yields_key .limit).spaced_cons (yields_clampedInt limit).spaced_one
    | offset offset limit =>
      exact (yields_key .limit).spaced_cons ((yields_clampedInt limit).spaced_cons
        ((yields_key .offset).spaced_cons (yields_clampedInt offset).spaced_one))

section
variable {d : Dialect} {s : Scope} (hs : TidyScope s) {params : Entries Value} {st : Statement}
include hs

omit params st in
theorem yields_orderAndPage (sort : List SortField) (page : Page) :
    Yields (Tokens.chars (spaced (orderBy s.view sort ++ [d.page page]))) [] := by
  refine yields_spaced fun ts hts => ?_
  rcases List.mem_append.mp hts with hts | hts
  · unfold orderBy at hts
    split at hts
    · cases hts
    · simp only [List.mem_cons, List.not_mem_nil, or_false] at hts
      rcases hts with rfl | rfl
      · exact yields_key .orderBy
      · refine yields_commaSeparated fun us hus => ?_
        obtain ⟨f, -, rfl⟩ := List.mem_map.mp hus
        exact (yields_raw (yields_refPath hs.mapping f.field)).spaced_cons
          (yields_key (dirKey f.dir)).spaced_one
  · cases List.mem_singleton.mp hts
    exact yields_page d page

theorem select_numbered {filter : Option Filter} {sort : List SortField} {page : Page}
    (h : select d s filter sort page params = .ok st) : st.Numbered params (nativeMarkers s) := by
  obtain ⟨⟨b, n⟩, hb, hrest⟩ := bind_eq_ok.mp h
  obtain ⟨q, hq, hst⟩ := bind_eq_ok.mp hrest
  obtain ⟨o, ho, hf⟩ := bind_eq_ok.mp hb
  obtain ⟨r, hr, hbn⟩ := bind_eq_ok.mp hf
  cases hbn
  cases hst
  have hv := yields_refPath hs.mapping
  obtain ⟨front, hfront, hnum⟩ := base_numbered hs ho
  have hfiltered := hnum.restrict hv (predicate?_renders hr)
  rw [List.nil_append] at hfiltered
  have hsought := hfiltered.restrict hv (seek_renders hq)
  refine Yields.numbered _ front (r.2 ++ q.2) ?_ hsought.binds hfront
  have h := hsought.yields.spaced_cons (yields_orderAndPage (d := d) hs sort page)
  rw [List.append_nil] at h
  exact h

theorem count_numbered {filter : Option Filter} (h : count d s filter params = .ok st) :
    st.Numbered params (nativeMarkers s) := by
  obtain ⟨⟨b, n⟩, hb, hst⟩ := bind_eq_ok.mp h
  obtain ⟨o, ho, hf⟩ := bind_eq_ok.mp hb
  obtain ⟨r, hr, hbn⟩ := bind_eq_ok.mp hf
  cases hbn
  cases hst
  obtain ⟨front, hfront, hnum⟩ := base_numbered hs ho
  have hfiltered := hnum.restrict (yields_refPath hs.mapping) (predicate?_renders hr)
  rw [List.nil_append] at hfiltered
  have hcount : Yields (Tokens.chars [.raw "COUNT(1)"]) [] := yields_raw (yields_plain (by decide))
  have halias : Yields (Tokens.chars [.raw countAlias]) [] := yields_raw (yields_plain (by decide))
  have h := (yields_key .select).spaced_cons (hcount.spaced_cons ((yields_key .from).spaced_cons
    (hfiltered.yields.parenthesized.spaced_cons halias.spaced_one)))
  rw [List.append_nil] at h
  exact Yields.numbered _ front r.2 h hfiltered.binds hfront

theorem update_numbered {w : Update} (hw : TidyWrite (.update w)) (h : update d s w = .ok st) :
    st.Numbered params [] := by
  obtain ⟨-, r, hr, rfl⟩ := update_cases h
  obtain ⟨ht, hsets⟩ : Tidy w.table ∧ ∀ c ∈ w.sets, Tidy c.column := by
    cases hw with
    | update ht hsets => exact ⟨ht, hsets⟩
  have hbegin := (yields_key .update).spaced_cons ((yields_ident ht).spaced_cons
    ((yields_key .set).spaced_cons (yields_setItems hsets 0).spaced_one))
  have hlen : w.sets.length = (w.sets.map (·.bind)).length := (List.length_map _).symm
  have hbase : (updateBase w).Numbered [] [] (w.sets.map (·.bind)) := by
    refine ⟨rfl, ?_⟩
    rw [← hlen]
    exact hbegin
  have hrender := writePredicate_renders hr
  rw [hlen] at hrender
  have hall := hbase.restrict (yields_refPath hs.mapping) hrender
  exact Yields.numbered [] [] _ hall.yields hall.binds rfl

theorem delete_numbered {w : Delete} (hw : TidyWrite (.delete w)) (h : delete d s w = .ok st) :
    st.Numbered params [] := by
  obtain ⟨r, hr, rfl⟩ := delete_cases h
  cases hw with
  | delete ht =>
    have hbase : (deleteBase w).Numbered [] [] [] :=
      ⟨rfl, (yields_key .delete).spaced_cons ((yields_key .from).spaced_cons
        (yields_ident ht).spaced_one)⟩
    have hall := hbase.restrict (yields_refPath hs.mapping) (writePredicate_renders hr)
    exact Yields.numbered [] [] _ hall.yields hall.binds rfl

end

/-! ## Inserts -/

theorem yields_insertTokens {w : Insert} (hw : TidyInsert w) {ts : Tokens}
    (h : insertTokens w = .ok ts) :
    Yields (Tokens.chars ts) (markerNames 0 (w.columns.map (·.bind)).length) := by
  unfold insertTokens at h
  split at h
  · cases h
  · cases h
    have hcolumns : ∀ c ∈ w.columnNames, Tidy c := by
      intro c hc
      obtain ⟨b, hb, rfl⟩ := List.mem_map.mp hc
      exact hw.columns b hb
    exact (yields_key .insert).spaced_cons ((yields_key .into).spaced_cons
      ((yields_ident hw.table).spaced_cons ((yields_identList hcolumns).parenthesized.spaced_cons
        ((yields_key .values).spaced_cons
          ((yields_markersAfter 0 _).parenthesized.spaced_one)))))

theorem yields_returning {d : Dialect} {columns : List String} (h : ∀ c ∈ columns, Tidy c) :
    Yields (Tokens.chars (d.returning columns)) [] := by
  unfold Dialect.returning
  split
  · exact yields_nil
  · split
    · exact yields_nil
    · exact (yields_key .returning).spaced_cons (yields_identList h).spaced_one

theorem join_concat (sep ts us : Tokens) (tss : List Tokens) :
    join sep (ts :: tss ++ [us]) = join sep (ts :: tss) ++ (sep ++ us) := by
  induction tss generalizing ts with
  | nil => exact List.append_assoc ts sep us
  | cons vs tss ih =>
    have hjoin : ∀ rest, join sep (ts :: vs :: rest) = ts ++ (sep ++ join sep (vs :: rest)) :=
      fun rest => List.append_assoc ts sep _
    rw [List.cons_append, List.cons_append, hjoin, ← List.cons_append, ih, hjoin,
      List.append_assoc, List.append_assoc]

theorem Yields.optional {ts us : Tokens} {tss : List Tokens} {ns : List (List Char)}
    (h : Yields (Tokens.chars (spaced (ts :: tss))) ns) (k : Yields (Tokens.chars us) []) :
    Yields (Tokens.chars (spaced (ts :: tss ++ if us.isEmpty then [] else [us]))) ns := by
  split
  · rw [List.append_nil]
    exact h
  · have hall := h.separated (show separates (Tokens.chars (key .space)) = true by decide) k
    rw [List.append_nil] at hall
    rw [spaced, join_concat, chars_append, chars_append]
    exact hall

theorem insert_numbered {d : Dialect} {w : Insert} (hw : TidyInsert w) {params : Entries Value}
    {st : Statement} (h : insert d w = .ok st) : st.Numbered params [] := by
  obtain ⟨ts, hts, hst⟩ := bind_eq_ok.mp h
  cases hst
  have hall := Yields.optional (yields_insertTokens hw hts).spaced_one
    (yields_returning (d := d) hw.returning)
  exact Yields.numbered [] [] (w.columns.map ColumnBind.bind) hall rfl rfl

theorem yields_assignment {column : String} (h : Tidy column) :
    Yields (Tokens.chars (Dialect.assignment column)) [] := by
  have hexcluded : Yields (Tokens.chars [.key .excluded, .key .dot, .ident column]) [] :=
    Yields.behind_plain Keyword.excluded.text.toList (by decide)
      (Yields.behind_plain Keyword.dot.text.toList (by decide) (yields_ident h))
  exact (yields_ident h).spaced_cons ((yields_key .eq).spaced_cons hexcluded.spaced_one)

theorem upsert_numbered {d : Dialect} {w : Upsert} (hw : TidyWrite (.upsert w))
    {params : Entries Value} {st : Statement} (h : upsert d w = .ok st) : st.Numbered params [] := by
  obtain ⟨ts, hts, hrest⟩ := bind_eq_ok.mp h
  obtain ⟨⟨us, exec⟩, hus, hst⟩ := bind_eq_ok.mp hrest
  cases hst
  cases hw with
  | upsert hi hc hu =>
    cases d with
    | ansi => cases hus
    | postgres =>
      unfold Dialect.upsert at hus
      simp only at hus
      split at hus
      · cases hus
      · cases hus
        have hitems : ∀ c ∈ (if w.updates.isEmpty then w.conflict else w.updates), Tidy c := by
          intro c hmem
          split at hmem
          · exact hc c hmem
          · exact hu c hmem
        have hset : Yields (Tokens.chars (commaSeparated
            ((if w.updates.isEmpty then w.conflict else w.updates).map Dialect.assignment))) [] := by
          refine yields_commaSeparated fun us hus => ?_
          obtain ⟨c, hmem, rfl⟩ := List.mem_map.mp hus
          exact yields_assignment (hitems c hmem)
        have hclauses := (yields_insertTokens hi hts).spaced_cons ((yields_key .on).spaced_cons
          ((yields_key .conflict).spaced_cons ((yields_identList hc).parenthesized.spaced_cons
            ((yields_key .do).spaced_cons ((yields_key .update).spaced_cons
              ((yields_key .set).spaced_cons hset.spaced_one))))))
        simp only [List.append_nil] at hclauses
        have hall := hclauses.optional (yields_returning (d := .postgres) hi.returning)
        exact Yields.numbered [] [] (w.insert.columns.map ColumnBind.bind) hall rfl rfl

/-! ## Everything the compiler gives -/

theorem tidy_of_plain {text : String} (h : text.toList.all isPlain = true) : Tidy text := by
  refine Tidy.of_yields ?_ (yields_plain h)
  rw [List.count_eq_zero_of_not_mem]
  intro hq
  exact absurd (List.all_eq_true.mp h _ hq) (by decide)

/-- A statement of the compiler, with the markers of the native text it is made from. -/
inductive Compiled (d : Dialect) (s : Scope) (params : Entries Value) : List Marker → Statement → Prop
  | select {filter : Option Filter} {sort : List SortField} {page : Page} {st : Statement}
    (h : select d s filter sort page params = .ok st) : Compiled d s params (nativeMarkers s) st
  | count {filter : Option Filter} {st : Statement} (h : count d s filter params = .ok st) :
    Compiled d s params (nativeMarkers s) st
  | write {w : Write} {st : Statement} (hw : TidyWrite w) (h : write d s w = .ok st) :
    Compiled d s params [] st

theorem Compiled.numbered {d : Dialect} {s : Scope} (hs : TidyScope s) {params : Entries Value}
    {native : List Marker} {st : Statement} (h : Compiled d s params native st) :
    st.Numbered params native := by
  cases h with
  | select h => exact select_numbered hs h
  | count h => exact count_numbered hs h
  | @write w _ hw h =>
    cases w with
    | insert w =>
      cases hw with
      | insert hw => exact insert_numbered hw (lift_eq_ok.mp h)
    | update w => exact update_numbered hs hw h
    | delete w => exact delete_numbered hs hw h
    | upsert w => exact upsert_numbered hw (lift_eq_ok.mp h)

end Polystore.Sql
