import Polystore.Proofs.Entries
import Polystore.Proofs.Types.TypeTexts
import Polystore.Types.Cache

/-! # Lookups of types

The types of parts are looked up by the ids they are written as, which are read anew. Such a lookup
ends after as many steps as the type has levels. It finds a type exactly if there are no references
in it and all its scalars are named, and what was built before makes no difference. -/

namespace Polystore
set_option autoImplicit false

open TypeRef (Readable Wrapper)

namespace TypeTable

theorem Own.named?_ref {t : TypeTable} (ht : t.Own) : t.named? "ref" = none :=
  ht.named?_eq_none fun s => by cases s <;> decide

/-! ## Types by the ids they are bound with -/

variable {t : TypeTable} {r : TypeRef} {id : String}

theorem part_nameless (t : TypeTable) (r : TypeRef) : t.part r.nameless = t.part r := by
  induction r with
  | map k v ihk ihv =>
    have hid : (TypeRef.map k.nameless v.nameless).typeId = (TypeRef.map k v).typeId := by
      simp only [TypeRef.typeId, TypeRef.typeId_nameless]
    rw [TypeRef.nameless, part, part, ihk, ihv, hid]
  | list e ih | set e ih | array e ih =>
    rw [TypeRef.nameless, part, part, ih]
    simp only [TypeRef.typeId, TypeRef.typeId_nameless]
  | _ => rfl

theorem get_trim (t : TypeTable) (text : String) : t.get (Text.trim text) = t.get text := by
  unfold get
  rw [Text.trim_trim]

theorem get_scalarId (h : TypeRef.IsScalarId id) : t.get id = t.scalar id := by
  have hread : Readable (.scalar id) := .scalar h
  have hparse : TypeRef.parse id = .ok (.scalar id) := hread.parseChars_typeId
  have htrim : Text.trim id = id := hread.trim_typeId
  unfold get
  rw [htrim]
  dsimp only
  rw [hparse]
  dsimp only [whole]
  unfold scalar
  cases t.named? id <;> rfl

/-- By itself a type is found as it is found as a part of another one. -/
theorem get_readable (ht : t.Own) (hr : Readable r) : t.get r.typeId = t.part r := by
  have hcontainer : '<' ∈ r.typeId.toList → t.whole r.typeId r.nameless = t.part r.nameless →
      t.get r.typeId = t.part r := by
    intro hbracket hwhole
    have hparse : TypeRef.parse r.typeId = .ok r.nameless := hr.parseChars_typeId
    unfold get
    rw [hr.trim_typeId]
    dsimp only
    rw [ht.named?_bracketed hbracket, hparse]
    dsimp only
    rw [hwhole, part_nameless]
  cases hr with
  | scalar h => simpa only [TypeRef.typeId, part] using get_scalarId h
  | ref h => simpa only [TypeRef.typeId, part] using get_scalarId TypeRef.isScalarId_ref
  | value h => simpa only [TypeRef.typeId, part] using get_scalarId TypeRef.isScalarId_json
  | @wrapped w e h =>
    have hbracket : '<' ∈ (w.wrap e).typeId.toList := by simp [Wrapper.typeId_wrap]
    refine hcontainer hbracket ?_
    rw [TypeRef.nameless_wrap, whole_wrap, part_wrap, ← TypeRef.nameless_wrap,
      TypeRef.typeId_nameless]
  | map hk hv hkey =>
    refine hcontainer (by simp [TypeRef.typeId]) ?_
    rw [← TypeRef.typeId_nameless]
    rfl

end TypeTable

/-! ## Types that are found -/

namespace TypeRef

def hasRef : TypeRef → Bool
  | scalar _ | value _ => false
  | ref _ => true
  | list e | set e | array e => e.hasRef
  | map k v => k.hasRef || v.hasRef

def scalars : TypeRef → List String
  | scalar id => [id]
  | ref _ | value _ => []
  | list e | set e | array e => e.scalars
  | map k v => k.scalars ++ v.scalars

/-- How many brackets stand around the innermost part. -/
def depth : TypeRef → Nat
  | scalar _ | ref _ | value _ => 0
  | list e | set e | array e => e.depth + 1
  | map k v => max k.depth v.depth + 1

end TypeRef

namespace TypeTable

variable {t : TypeTable}

theorem isOk_map {ε α β : Type} (f : α → β) (r : Except ε α) : (r.map f).isOk = r.isOk := by
  cases r <;> rfl

theorem isOk_scalar (id : String) : (t.scalar id).isOk = (t.named? id).isSome := by
  unfold scalar
  cases t.named? id <;> rfl

theorem isOk_part_map (k v : TypeRef) :
    (t.part (.map k v)).isOk = ((t.part k).isOk && (t.part v).isOk) := by
  rw [part]
  cases t.part k with
  | error e => rfl
  | ok key => cases t.part v <;> rfl

/-- A part is found unless a reference or a scalar in it has no type. -/
theorem isOk_part (ht : t.Own) (r : TypeRef) :
    (t.part r).isOk = true ↔ r.hasRef = false ∧ ∀ id ∈ r.scalars, (t.named? id).isSome = true := by
  induction r with
  | scalar id => simp [part, isOk_scalar, TypeRef.hasRef, TypeRef.scalars]
  | ref e => simp [part, isOk_scalar, TypeRef.hasRef, TypeRef.typeId, ht.named?_ref]
  | value e =>
    have hjson : (t.named? "json").isSome := ht.named?_isSome.mpr ⟨.json, rfl⟩
    simp [part, isOk_scalar, TypeRef.hasRef, TypeRef.scalars, TypeRef.typeId, hjson]
  | list e ih | set e ih | array e ih => rwa [part, isOk_map, TypeRef.hasRef, TypeRef.scalars]
  | map k v ihk ihv =>
    rw [isOk_part_map, Bool.and_eq_true, ihk, ihv, TypeRef.hasRef, TypeRef.scalars,
      Bool.or_eq_false_iff, List.forall_mem_append]
    tauto

end TypeTable

/-! ## What a cache keeps -/

namespace TypeCache

variable {t : TypeTable} {c : TypeCache} {r : TypeRef} {id text : String}

/-- What was built is what the table itself gives. -/
structure Keeps (t : TypeTable) (c : TypeCache) : Prop where
  table : c.table = t
  built : ∀ {id u}, c.built.lookup id = some u → t.get id = .ok u

/-- A step gives an answer and a cache that keeps to the table. -/
structure Answers (t : TypeTable) (answer : Except CodecError UserType) (s : Step) : Prop where
  answer : s.1 = answer
  keeps : Keeps t s.2

variable {answer : Except CodecError UserType} {s : Step}

theorem keeps_ofTable (t : TypeTable) : Keeps t (ofTable t) := ⟨rfl, nofun⟩

theorem Answers.keep (h : Answers t (t.get id) s) : Answers t (t.get id) (keep id s) := by
  obtain ⟨a, c⟩ := s
  cases a with
  | error e => exact h
  | ok u =>
    refine ⟨h.answer, h.keeps.table, ?_⟩
    intro other w hw
    change (Entries.insert id u c.built).lookup other = some w at hw
    by_cases hother : other = id
    · rw [hother, Entries.lookup_insert_self] at hw
      cases hw
      rw [hother]
      exact h.answer.symm
    · rw [Entries.lookup_insert_of_ne hother] at hw
      exact h.keeps.built hw

theorem Answers.mapStep (f : UserType → UserType) (h : Answers t answer s) :
    Answers t (answer.map f) (mapStep f s) :=
  ⟨congrArg (·.map f) h.answer, h.keeps⟩

theorem Answers.mapBoth {f : UserType → UserType → UserType} {second : TypeCache → Step}
    {answer' : Except CodecError UserType} (h : Answers t answer s)
    (h' : ∀ c, Keeps t c → Answers t answer' (second c)) :
    Answers t (do let a ← answer; let b ← answer'; .ok (f a b)) (mapBoth f s second) := by
  obtain ⟨a, c⟩ := s
  obtain ⟨rfl, hkeeps⟩ := h
  cases a with
  | error e => exact ⟨rfl, hkeeps⟩
  | ok u => exact (h' c hkeeps).mapStep (f u)

/-- An id that is trimmed is answered as the table answers it if that is what is built for it. -/
theorem answers_orBuild {build : TypeCache → Step} (hc : Keeps t c) (htrim : Text.trim id = id)
    (hbuild : t.named? id = none → Answers t (t.get id) (build c)) :
    Answers t (t.get id) (c.orBuild id build) := by
  unfold orBuild
  rw [hc.table]
  cases hnamed : t.named? id with
  | some u =>
    refine ⟨?_, hc⟩
    unfold TypeTable.get
    rw [htrim]
    dsimp only
    rw [hnamed]
  | none =>
    cases hbuilt : c.built.lookup id with
    | some u => exact ⟨(hc.built hbuilt).symm, hc⟩
    | none => exact (hbuild hnamed).keep

theorem answers_named (hc : Keeps t c) : Answers t (t.scalar id) (named id c) :=
  ⟨by rw [named, hc.table], hc⟩

theorem part_wrapped (w : Wrapper) (r : TypeRef) (c : TypeCache) :
    part (w.wrap r) c = c.orBuild (w.wrap r).typeId
      fun c => mapStep (.collection (w.wrap r).typeId w) (part r c) := by
  cases w <;> rfl

theorem whole_wrapped (id : String) (c : TypeCache) (w : Wrapper) (r : TypeRef) :
    whole id c (w.wrap r) = mapStep (.collection id w) (part r c) := by
  cases w <;> rfl

theorem answers_part (ht : t.Own) (hr : Readable r) (hc : Keeps t c) :
    Answers t (t.part r) (part r c) := by
  induction hr generalizing c with
  | scalar h => exact answers_named hc
  | ref h => exact answers_named hc
  | value h => exact answers_named hc
  | @wrapped w e he ih =>
    have hw : Readable (w.wrap e) := .wrapped w he
    rw [part_wrapped, ← TypeTable.get_readable ht hw]
    refine answers_orBuild hc hw.trim_typeId fun _ => ?_
    rw [TypeTable.get_readable ht hw, TypeTable.part_wrap]
    exact (ih hc).mapStep _
  | @map k v hk hv hkey ihk ihv =>
    have hm : Readable (.map k v) := .map hk hv hkey
    rw [part, ← TypeTable.get_readable ht hm]
    refine answers_orBuild hc hm.trim_typeId fun _ => ?_
    rw [TypeTable.get_readable ht hm]
    exact (ihk hc).mapBoth fun c hc => ihv hc

theorem answers_whole (ht : t.Own) (hr : Readable r) (hc : Keeps t c) :
    Answers t (t.whole id r) (whole id c r) := by
  cases hr with
  | scalar h => exact answers_named hc
  | ref h => exact ⟨by rw [whole, hc.table]; rfl, hc⟩
  | value h => exact ⟨by rw [whole, hc.table]; rfl, hc⟩
  | wrapped w he =>
    rw [whole_wrapped, TypeTable.whole_wrap]
    exact (answers_part ht he hc).mapStep _
  | map hk hv hkey => exact (answers_part ht hk hc).mapBoth fun c hc => answers_part ht hv hc

/-- A lookup answers as the table does, and what it keeps is what the table gives. -/
theorem answers_get (ht : t.Own) (hc : Keeps t c) (text : String) :
    Answers t (t.get text) (c.get text) := by
  rw [← TypeTable.get_trim]
  unfold get
  refine answers_orBuild hc (Text.trim_trim text) fun hnamed => ?_
  unfold TypeTable.get
  rw [Text.trim_trim]
  dsimp only
  rw [hnamed]
  cases hparse : TypeRef.parse (Text.trim text) with
  | error e => exact ⟨by rw [← hc.table], hc⟩
  | ok r => exact answers_whole ht (TypeRef.readable_of_parseChars hparse).1 hc

/-! ## Steps of a lookup -/

/-- What an id is built as, by looking up the ids of its parts. A scalar is looked up once more if it
was not written as its id. -/
def buildBy (look : TypeCache → String → Option Step) (c : TypeCache) (id : String) : Option Step :=
  let unknown : Option Step := some (.error (c.table.unknown id), c)
  match TypeRef.parse id with
  | .error _ => unknown
  | .ok (.scalar s) => if s = id then unknown else look c s
  | .ok (.ref _) => unknown
  | .ok (.value _) => unknown
  | .ok (.list e) => (look c e.typeId).map (mapStep (.collection id .list))
  | .ok (.set e) => (look c e.typeId).map (mapStep (.collection id .set))
  | .ok (.array e) => (look c e.typeId).map (mapStep (.collection id .array))
  | .ok (.map k v) =>
    match look c k.typeId with
    | none => none
    | some (.error e, c) => some (.error e, c)
    | some (.ok key, c) => (look c v.typeId).map (mapStep (.map id key))

/-- The result of a lookup if it ends within so many nested ones. -/
def getWithin : Nat → TypeCache → String → Option Step
  | 0, _, _ => none
  | n + 1, c, text =>
    let id := Text.trim text
    match c.table.named? id with
    | some u => some (.ok u, c)
    | none =>
      match c.built.lookup id with
      | some u => some (.ok u, c)
      | none => (buildBy (getWithin n) c id).map (keep id)

theorem getWithin_succ {n : Nat} {build : TypeCache → Step} (htrim : Text.trim text = id)
    (h : c.table.named? id = none → buildBy (getWithin n) c id = some (build c)) :
    getWithin (n + 1) c text = some (c.orBuild id build) := by
  subst htrim
  rw [getWithin, orBuild]
  cases hnamed : c.table.named? (Text.trim text) with
  | some u => rfl
  | none =>
    cases hbuilt : c.built.lookup (Text.trim text) with
    | some u => rfl
    | none =>
      simp only [h hnamed, Option.map_some]

theorem buildBy_wrapped {look : TypeCache → String → Option Step} {w : Wrapper}
    (h : TypeRef.parse id = .ok (w.wrap r)) :
    buildBy look c id = (look c r.typeId).map (mapStep (.collection id w)) := by
  unfold buildBy
  rw [h]
  cases w <;> rfl

theorem buildBy_map {look : TypeCache → String → Option Step} {k v : TypeRef} {first : Step}
    {second : TypeCache → Step} (h : TypeRef.parse id = .ok (.map k v))
    (hk : look c k.typeId = some first)
    (hv : look first.2 v.typeId = some (second first.2)) :
    buildBy look c id = some (mapBoth (.map id) first second) := by
  unfold buildBy
  rw [h]
  dsimp only
  rw [hk]
  obtain ⟨a, c'⟩ := first
  cases a with
  | error e => rfl
  | ok key =>
    dsimp only
    rw [hv]
    rfl

theorem named_eq_orBuild (hc : Keeps t c) (h : t.get id = t.scalar id) :
    named id c = c.orBuild id fun c => (.error (c.table.unknown id), c) := by
  unfold named orBuild TypeTable.scalar
  cases hnamed : c.table.named? id with
  | some u => rfl
  | none =>
    cases hbuilt : c.built.lookup id with
    | none => rfl
    | some u =>
      rw [hc.built hbuilt, TypeTable.scalar, ← hc.table, hnamed] at h
      cases h

theorem getWithin_scalar {n : Nat} (hid : TypeRef.IsScalarId id) (hc : Keeps t c) :
    getWithin (n + 1) c id = some (named id c) := by
  have hread : Readable (.scalar id) := .scalar hid
  have hparse : TypeRef.parse id = .ok (.scalar id) := hread.parseChars_typeId
  have htrim : Text.trim id = id := hread.trim_typeId
  rw [named_eq_orBuild hc (TypeTable.get_scalarId hid)]
  refine getWithin_succ htrim fun _ => ?_
  simp only [buildBy, hparse, if_true]

/-- The lookup of a part ends after as many nested ones as it has levels. -/
theorem getWithin_part {n : Nat} (ht : t.Own) (hr : Readable r) (hc : Keeps t c)
    (hn : r.depth < n) : getWithin n c r.typeId = some (part r c) := by
  obtain ⟨n, rfl⟩ := Nat.exists_eq_add_one_of_ne_zero (Nat.ne_zero_of_lt hn)
  -- the cache is left open: the value of a map is looked up in what the key has left
  induction hr generalizing c n with
  | scalar h => exact getWithin_scalar h hc
  | ref h => exact getWithin_scalar TypeRef.isScalarId_ref hc
  | value h => exact getWithin_scalar TypeRef.isScalarId_json hc
  | @wrapped w e he ih =>
    have hread : Readable (w.wrap e) := .wrapped w he
    have hparse : TypeRef.parse (w.wrap e).typeId = .ok (w.wrap e.nameless) := by
      rw [← TypeRef.nameless_wrap]
      exact hread.parseChars_typeId
    have hdepth : e.depth < n := by
      cases w <;> exact Nat.lt_of_succ_lt_succ hn
    obtain ⟨m, rfl⟩ := Nat.exists_eq_add_one_of_ne_zero (Nat.ne_zero_of_lt hdepth)
    rw [part_wrapped]
    refine getWithin_succ hread.trim_typeId fun _ => ?_
    rw [buildBy_wrapped hparse, TypeRef.typeId_nameless, ih hc m hdepth]
    rfl
  | @map k v hk hv hkey ihk ihv =>
    have hread : Readable (.map k v) := .map hk hv hkey
    have hdepth : max k.depth v.depth < n := Nat.lt_of_succ_lt_succ hn
    obtain ⟨m, rfl⟩ := Nat.exists_eq_add_one_of_ne_zero (Nat.ne_zero_of_lt hdepth)
    rw [part]
    refine getWithin_succ hread.trim_typeId fun _ => ?_
    refine buildBy_map hread.parseChars_typeId ?_ ?_
    · rw [TypeRef.typeId_nameless]
      exact ihk hc m (by omega)
    · rw [TypeRef.typeId_nameless]
      exact ihv (answers_part ht hk hc).keeps m (by omega)

/-- A lookup of any text ends. -/
theorem getWithin_get (ht : t.Own) (hc : Keeps t c) (text : String) :
    ∃ n, ∀ m, n ≤ m → getWithin m c text = some (c.get text) := by
  unfold get
  cases hparse : TypeRef.parse (Text.trim text) with
  | error e =>
    refine ⟨1, fun m hm => ?_⟩
    obtain ⟨m, rfl⟩ := Nat.exists_eq_add_one_of_ne_zero (Nat.ne_zero_of_lt hm)
    refine getWithin_succ rfl fun _ => ?_
    simp only [buildBy, hparse]
  | ok r =>
    refine ⟨r.depth + 2, fun m hm => ?_⟩
    obtain ⟨m, rfl⟩ := Nat.exists_eq_add_one_of_ne_zero (Nat.ne_zero_of_lt hm)
    have hdepth : r.depth < m := by omega
    refine getWithin_succ rfl fun hnamed => ?_
    rw [hparse]
    dsimp only
    have hread := (TypeRef.readable_of_parseChars hparse).1
    cases hread with
    | @scalar s h =>
      -- an id in another letter case takes one step more
      obtain ⟨m, rfl⟩ := Nat.exists_eq_add_one_of_ne_zero (Nat.ne_zero_of_lt hdepth)
      simp only [buildBy, hparse, whole]
      split
      · rename_i hs
        rw [named, hs, TypeTable.scalar, hnamed]
      · exact getWithin_scalar h hc
    | ref h => simp only [buildBy, hparse, whole]
    | value h => simp only [buildBy, hparse, whole]
    | @wrapped w e he =>
      have hlt : e.depth < m := by
        cases w <;> exact Nat.lt_of_succ_lt hdepth
      rw [buildBy_wrapped hparse, getWithin_part ht he hc hlt, whole_wrapped]
      rfl
    | @map k v hk hv hkey =>
      have hlt : max k.depth v.depth + 1 < m := hdepth
      refine buildBy_map hparse (getWithin_part ht hk hc (by omega)) ?_
      exact getWithin_part ht hv (answers_part ht hk hc).keeps (by omega)

/-! ## Calls -/

inductive Call where
  | get (id : String)
  | contains (id : String)
  | encode (id : String) (v : Value)
  | decode (id : String) (v : Value)

/-- The cache after a call. -/
def Call.after (c : TypeCache) : Call → TypeCache
  | .get id => (c.get id).2
  | .contains id => (c.contains id).2
  | .encode id v => (c.encode id v).2
  | .decode id v => (c.decode id v).2

theorem Keeps.after (ht : t.Own) (hc : Keeps t c) (call : Call) : Keeps t (call.after c) := by
  cases call <;> exact (answers_get ht hc _).keeps

theorem Keeps.after_all (ht : t.Own) (hc : Keeps t c) (calls : List Call) :
    Keeps t (calls.foldl Call.after c) := by
  induction calls generalizing c with
  | nil => exact hc
  | cons call calls ih => exact ih (hc.after ht call)

theorem get_fst (ht : t.Own) (hc : Keeps t c) (id : String) :
    (c.get id).1 = ((ofTable t).get id).1 := by
  rw [(answers_get ht hc id).answer, (answers_get ht (keeps_ofTable t) id).answer]

/-- Lookups in a table of own types end, find the types that have no reference in them and only
scalars with a name, and answer as if nothing had been looked up before. -/
theorem lookups_settled (ht : t.Own) (calls : List Call) :
    let c := calls.foldl Call.after (ofTable t)
    (∀ text, ∃ n, ∀ m, n ≤ m → c.getWithin m text = some (c.get text)) ∧
    (∀ text r, TypeRef.parse text = .ok r → ((c.get r.typeId).1.isOk = true ↔
      r.hasRef = false ∧ ∀ id ∈ r.scalars, (t.named? id).isSome = true)) ∧
    (∀ id, (c.get id).1 = ((ofTable t).get id).1) ∧
    (∀ id, (c.contains id).1 = ((ofTable t).contains id).1) ∧
    (∀ id v, (c.encode id v).1 = ((ofTable t).encode id v).1) ∧
    (∀ id v, (c.decode id v).1 = ((ofTable t).decode id v).1) := by
  intro c
  have hc : Keeps t c := (keeps_ofTable t).after_all ht calls
  refine ⟨getWithin_get ht hc, fun text r hr => ?_, get_fst ht hc, fun id => ?_, fun id v => ?_,
    fun id v => ?_⟩
  · have hread : Readable r := TypeRef.readable_iff.mpr ⟨text, hr⟩
    rw [(answers_get ht hc _).answer, TypeTable.get_readable ht hread]
    exact TypeTable.isOk_part ht r
  · exact congrArg Except.isOk (get_fst ht hc id)
  · exact congrArg (·.bind (·.encode v)) (get_fst ht hc id)
  · exact congrArg (·.bind (·.decode v)) (get_fst ht hc id)

/-- After lookups in other letter cases, with blanks and without success. -/
theorem mixedLookups_settled :
    let t := TypeTable.ofDialect "document"
    let calls := [Call.get " LIST<Int> ", .contains "set<ref(owner)>", .encode "list<money>" .null]
    let c := calls.foldl Call.after (ofTable t)
    t.Own ∧ (∃ n, ∀ m, n ≤ m → c.getWithin m "list< int>" = some (c.get "list< int>")) ∧
      (c.get "list<int>").1.isOk = true ∧ (c.get "list<ref>").1.isOk = false ∧
      (c.get "LIST<Int>").1 = ((ofTable t).get "LIST<Int>").1 := by
  intro t calls c
  have ht : t.Own := TypeTable.own_ofDialect "document"
  obtain ⟨hends, hfound, hsame, -⟩ := lookups_settled ht calls
  have hints : Readable (.list (.scalar "int")) :=
    .wrapped .list (.scalar ⟨by decide, by decide, by decide, by decide⟩)
  have howners : Readable (.list (.ref "owner")) := .wrapped .list (.ref ⟨by decide, by decide⟩)
  refine ⟨ht, hends _, (hfound _ _ hints.parseChars_text).mpr ⟨rfl, by decide⟩, ?_, hsame _⟩
  refine Bool.eq_false_iff.mpr fun hok => ?_
  have hnoRef := ((hfound _ _ howners.parseChars_text).mp hok).1
  cases hnoRef

end TypeCache

end Polystore
