import Polystore.Proofs.Entries
import Polystore.Row

/-! # Laws of dot paths

What was written at a path is read there, and nothing else changes at paths that lead elsewhere:
neither of the two is the start of the other. A document written by paths has no dots in its keys,
so that it reads the same by key and by path. -/

namespace Polystore
set_option autoImplicit false

/-! ## Segments -/

theorem mem_splitChars {sep : Char} {cs p : List Char} (h : p ∈ Text.splitChars sep cs) :
    sep ∉ p := by
  induction cs generalizing p with
  | nil =>
    cases List.mem_singleton.mp h
    exact List.not_mem_nil
  | cons c r ih =>
    unfold Text.splitChars at h
    split at h
    · rcases List.mem_cons.mp h with rfl | hp
      · exact List.not_mem_nil
      · exact ih hp
    · rename_i hc
      cases hr : Text.splitChars sep r with
      | nil => exact absurd hr (Text.splitChars_ne_nil sep r)
      | cons q qs =>
        rw [hr] at h ih
        rcases List.mem_cons.mp h with rfl | hp
        · exact List.not_mem_cons_of_ne_of_not_mem (fun heq => hc heq.symm) (ih List.mem_cons_self)
        · exact ih (List.mem_cons_of_mem q hp)

theorem splitChars_of_not_mem {sep : Char} {cs : List Char} (h : sep ∉ cs) :
    Text.splitChars sep cs = [cs] := by
  induction cs with
  | nil => rfl
  | cons c r ih =>
    have hc : c ≠ sep := (List.ne_of_not_mem_cons h).symm
    rw [Text.splitChars, if_neg hc, ih (List.not_mem_of_not_mem_cons h)]

theorem not_mem_segments {path k : String} (h : k ∈ segments path) : '.' ∉ k.toList := by
  obtain ⟨cs, hcs, rfl⟩ := List.mem_map.mp h
  rw [String.toList_ofList]
  exact mem_splitChars hcs

theorem segments_of_undotted {path : String} (h : '.' ∉ path.toList) : segments path = [path] := by
  rw [segments, Text.split, splitChars_of_not_mem h, List.map_singleton, String.ofList_toList]

theorem eq_of_splitChars {sep : Char} {cs p : List Char} (h : Text.splitChars sep cs = [p]) :
    p = cs := by
  induction cs generalizing p with
  | nil => exact (List.singleton_inj.mp h).symm
  | cons c r ih =>
    unfold Text.splitChars at h
    split at h
    · exact absurd (List.cons.inj h).2 (Text.splitChars_ne_nil sep r)
    · cases hr : Text.splitChars sep r with
      | nil => exact absurd hr (Text.splitChars_ne_nil sep r)
      | cons q qs =>
        rw [hr] at h ih
        obtain ⟨rfl, rfl⟩ := List.cons.inj h
        rw [ih rfl]

theorem eq_of_segments {path k : String} (h : segments path = [k]) : k = path := by
  obtain ⟨p, hp, rfl⟩ := List.map_eq_singleton_iff.mp h
  rw [eq_of_splitChars hp, String.ofList_toList]

theorem segments_ne_nil (path : String) : segments path ≠ [] := by
  intro h
  exact Text.splitChars_ne_nil '.' path.toList (List.map_eq_nil_iff.mp h)

/-! ## First segments -/

theorem ne_dot_of_undotted {path : String} (h : '.' ∉ path.toList) :
    ∀ c ∈ path.toList, (c != '.') = true := by
  intro c hc
  rw [bne_iff_ne]
  rintro rfl
  exact h hc

theorem toList_dotted (parent child : String) :
    (parent ++ "." ++ child).toList = parent.toList ++ '.' :: child.toList := by
  rw [String.toList_append, String.toList_append, List.append_assoc]
  rfl

theorem splitOnce?_dot {parent : String} (h : '.' ∉ parent.toList) (child : String) :
    Text.splitOnce? '.' (parent ++ "." ++ child) = some (parent, child) := by
  have hplain := ne_dot_of_undotted h
  have hdrop : (parent.toList ++ '.' :: child.toList).dropWhile (· != '.') =
      '.' :: child.toList := by
    rw [List.dropWhile_append_of_pos hplain]
    rfl
  have htake : (parent.toList ++ '.' :: child.toList).takeWhile (· != '.') = parent.toList := by
    rw [List.takeWhile_append_of_pos hplain]
    exact List.append_nil _
  unfold Text.splitOnce?
  dsimp only
  rw [toList_dotted, hdrop, htake]
  dsimp only
  rw [String.ofList_toList, String.ofList_toList]

theorem splitOnce?_undotted {path : String} (h : '.' ∉ path.toList) :
    Text.splitOnce? '.' path = none := by
  have hplain := ne_dot_of_undotted h
  have hdrop : path.toList.dropWhile (· != '.') = [] := by
    rw [← List.append_nil path.toList, List.dropWhile_append_of_pos hplain]
    rfl
  unfold Text.splitOnce?
  dsimp only
  rw [hdrop]

theorem splitChars_append {sep : Char} {cs : List Char} (h : sep ∉ cs) (r : List Char) :
    Text.splitChars sep (cs ++ sep :: r) = cs :: Text.splitChars sep r := by
  induction cs with
  | nil => rw [List.nil_append, Text.splitChars, if_pos rfl]
  | cons c cs ih =>
    have hc : c ≠ sep := (List.ne_of_not_mem_cons h).symm
    rw [List.cons_append, Text.splitChars, if_neg hc, ih (List.not_mem_of_not_mem_cons h)]

theorem exists_of_dotted {path : String} (h : '.' ∈ path.toList) :
    ∃ head rest, '.' ∉ head.toList ∧ path = head ++ "." ++ rest := by
  obtain ⟨cs, r, hpath, hcs⟩ := List.eq_append_cons_of_mem h
  refine ⟨String.ofList cs, String.ofList r, by rwa [String.toList_ofList], ?_⟩
  rw [← String.toList_inj, hpath, toList_dotted, String.toList_ofList, String.toList_ofList]

theorem splitOnce?_eq_some {path head rest : String} :
    Text.splitOnce? '.' path = some (head, rest) ↔
      '.' ∉ head.toList ∧ path = head ++ "." ++ rest := by
  constructor
  · intro h
    by_cases hdot : '.' ∈ path.toList
    · obtain ⟨head', rest', hhead, rfl⟩ := exists_of_dotted hdot
      cases (splitOnce?_dot hhead rest').symm.trans h
      exact ⟨hhead, rfl⟩
    · cases (splitOnce?_undotted hdot).symm.trans h
  · rintro ⟨hhead, rfl⟩
    exact splitOnce?_dot hhead rest

theorem segments_dotted {head : String} (h : '.' ∉ head.toList) (rest : String) :
    segments (head ++ "." ++ rest) = head :: segments rest := by
  rw [segments, Text.split, toList_dotted, splitChars_append h, List.map_cons,
    String.ofList_toList]
  rfl

/-- Cut at its first dot, a path is its first segment and the path of the others. -/
theorem splitOnce?_segments (path : String) :
    Text.splitOnce? '.' path = none ∧ segments path = [path] ∨
      ∃ head rest, Text.splitOnce? '.' path = some (head, rest) ∧
        segments path = head :: segments rest := by
  by_cases hdot : '.' ∈ path.toList
  · obtain ⟨head, rest, hhead, rfl⟩ := exists_of_dotted hdot
    exact .inr ⟨head, rest, splitOnce?_dot hhead rest, segments_dotted hhead rest⟩
  · exact .inl ⟨splitOnce?_undotted hdot, segments_of_undotted hdot⟩

/-! ## Joined segments -/

/-- A path is these texts with a dot between each two of them. -/
structure Joins (path : String) (names : List String) : Prop where
  undotted : ∀ name ∈ names, '.' ∉ name.toList
  joined : ".".intercalate names = path

theorem intercalate_segments (path : String) : ".".intercalate (segments path) = path := by
  generalize hnames : segments path = names
  induction names generalizing path with
  | nil => exact absurd hnames (segments_ne_nil path)
  | cons name names ih =>
    obtain ⟨-, hsegments⟩ | ⟨head, rest, hsplit, hsegments⟩ := splitOnce?_segments path
    · rw [← hnames, hsegments, String.intercalate_singleton]
    · obtain ⟨-, rfl⟩ := splitOnce?_eq_some.mp hsplit
      obtain ⟨rfl, hrest⟩ := List.cons.inj (hsegments.symm.trans hnames)
      have hne : names ≠ [] := hrest ▸ segments_ne_nil rest
      rw [String.intercalate_cons_of_ne_nil hne, ih rest hrest]

theorem segments_intercalate {names : List String} (hne : names ≠ [])
    (h : ∀ name ∈ names, '.' ∉ name.toList) : segments (".".intercalate names) = names := by
  induction names with
  | nil => exact absurd rfl hne
  | cons name names ih =>
    rw [List.forall_mem_cons] at h
    cases names with
    | nil => rw [String.intercalate_singleton, segments_of_undotted h.1]
    | cons next names =>
      rw [String.intercalate_cons_cons, segments_dotted h.1, ih (List.cons_ne_nil next names) h.2]

/-- A path is cut into segments in one way only. -/
theorem segments_eq_iff {path : String} {names : List String} (hne : names ≠ []) :
    segments path = names ↔ Joins path names := by
  constructor
  · rintro rfl
    exact ⟨fun name => not_mem_segments, intercalate_segments path⟩
  · rintro ⟨hundotted, rfl⟩
    exact segments_intercalate hne hundotted

/-! ## Paths that lead elsewhere -/

/-- Neither of two paths is the start of the other one. -/
def Apart (p q : String) : Prop := ¬segments p <+: segments q ∧ ¬segments q <+: segments p

instance (p q : String) : Decidable (Apart p q) := inferInstanceAs (Decidable (_ ∧ _))

theorem Apart.symm {p q : String} (h : Apart p q) : Apart q p := ⟨h.2, h.1⟩

theorem not_apart_self (p : String) : ¬Apart p p := fun h => h.1 List.prefix_rfl

/-! ## Writing at a path -/

namespace Document

section
variable {v : Value}

theorem at_setSegments (v : Value) {ks : List String} (h : ks ≠ []) (d : Document) :
    Value.atSegments? ks (.map (setSegments v ks d)) = some v := by
  induction ks generalizing d with
  | nil => exact absurd rfl h
  | cons k ks ih =>
    cases ks with
    | nil => simp only [setSegments, Value.atSegments?, Entries.lookup_insert_self]
    | cons k' ks =>
      rw [setSegments, Value.atSegments?, Entries.lookup_insert_self]
      · exact ih (List.cons_ne_nil k' ks) (child d k)
      · exact List.cons_ne_nil k' ks

/-- Below a key a document shows what stands there, if it is a document. -/
theorem at_child (d : Document) (k : String) {ks : List String} (h : ks ≠ []) :
    Value.atSegments? ks (.map (child d k)) = Value.atSegments? (k :: ks) (.map d) := by
  cases ks with
  | nil => exact absurd rfl h
  | cons k' ks =>
    unfold child
    rw [Value.atSegments?.eq_def (k :: k' :: ks)]
    dsimp only
    cases hk : d.lookup k with
    | none => rfl
    | some w => cases w <;> rfl

theorem at_setSegments_of_not_prefix {ks js : List String} (hks : ¬ks <+: js) (hjs : ¬js <+: ks)
    (d : Document) :
    Value.atSegments? js (.map (setSegments v ks d)) = Value.atSegments? js (.map d) := by
  induction ks generalizing js d with
  | nil => exact absurd List.nil_prefix hks
  | cons k ks ih =>
    cases js with
    | nil => exact absurd List.nil_prefix hjs
    | cons j js =>
      by_cases hjk : j = k
      · subst hjk
        rw [List.prefix_cons_inj] at hks hjs
        have hne : js ≠ [] := fun hnil => hjs (hnil ▸ List.nil_prefix)
        cases ks with
        | nil => exact absurd List.nil_prefix hks
        | cons k' ks =>
          rw [setSegments, ← at_child d j hne, ← ih hks hjs]
          · rw [Value.atSegments?, Entries.lookup_insert_self]
          · exact List.cons_ne_nil k' ks
      · have hwrite : ∃ w, setSegments v (k :: ks) d = Entries.insert k w d := by
          cases ks with
          | nil => exact ⟨_, rfl⟩
          | cons k' ks => exact ⟨_, rfl⟩
        obtain ⟨w, hwrite⟩ := hwrite
        rw [hwrite, Value.atSegments?, Value.atSegments?, Entries.lookup_insert_of_ne hjk]

end

theorem getPath?_setPath_self (d : Document) (path : String) (v : Value) :
    getPath? (setPath d path v) path = some v := at_setSegments v (segments_ne_nil path) d

theorem getPath?_setPath_of_apart {p q : String} (h : Apart p q) (d : Document) (v : Value) :
    getPath? (setPath d p v) q = getPath? d q := at_setSegments_of_not_prefix h.1 h.2 d

theorem getPath?_nil (path : String) : getPath? [] path = none := by
  unfold getPath? Value.getPath?
  cases hs : segments path with
  | nil => exact absurd hs (segments_ne_nil path)
  | cons k ks => rfl

/-- A path does not see an entry under another key. -/
theorem getPath?_insert_of_ne {key path : String} (h : (segments path).head? ≠ some key)
    (v : Value) (d : Document) : getPath? (Entries.insert key v d) path = getPath? d path := by
  unfold getPath? Value.getPath?
  cases hs : segments path with
  | nil => exact absurd hs (segments_ne_nil path)
  | cons k ks =>
    rw [hs] at h
    have hne : k ≠ key := fun heq => h (congrArg some heq)
    rw [Value.atSegments?, Value.atSegments?, Entries.lookup_insert_of_ne hne]

/-- What is there at a path is there under its first segment. -/
theorem lookup_head_of_getPath? {d : Document} {path key : String} {v : Value}
    (hkey : (segments path).head? = some key) (h : getPath? d path = some v) :
    ∃ w, d.lookup key = some w := by
  unfold getPath? Value.getPath? at h
  cases hs : segments path with
  | nil => exact absurd hs (segments_ne_nil path)
  | cons k ks =>
    rw [hs] at h hkey
    obtain rfl : k = key := Option.some.inj hkey
    rw [Value.atSegments?] at h
    cases hk : d.lookup k with
    | none =>
      rw [hk] at h
      cases h
    | some w => exact ⟨w, rfl⟩

/-! ## Other readers -/

theorem getPath?_of_segments {path head : String} {ks : List String}
    (h : segments path = head :: ks) (d : Document) :
    getPath? d path = (d.lookup head).bind (Value.atSegments? ks) := by
  unfold getPath? Value.getPath?
  rw [h, Value.atSegments?]
  cases d.lookup head <;> rfl

/-- A path is read alike with its first segment apart and with all of them. -/
theorem at?_eq (d : Document) (path : String) : at? d path = getPath? d path := by
  unfold at?
  obtain ⟨hsplit, hsegments⟩ | ⟨head, rest, hsplit, hsegments⟩ := splitOnce?_segments path
  · rw [hsplit, getPath?_of_segments hsegments]
    cases d.lookup path <;> rfl
  · rw [hsplit, getPath?_of_segments hsegments]
    dsimp only
    unfold below?
    cases d.lookup head <;> rfl

/-- What has no key of the name of a path is read along the path. -/
theorem atKey?_eq (d : Document) (path : String) :
    Row.atKey? d path = (d.lookup path).or (getPath? d path) := by
  rw [← at?_eq]
  unfold Row.atKey? at?
  cases hkey : d.lookup path with
  | some v => rfl
  | none => cases Text.splitOnce? '.' path <;> rfl

/-! ## Documents without dots -/

def Undotted (d : Document) : Prop := ∀ e ∈ d, '.' ∉ e.1.toList

theorem undotted_nil : Undotted [] := nofun

theorem Undotted.insert {d : Document} (h : Undotted d) {key : String} (hkey : '.' ∉ key.toList)
    (v : Value) : Undotted (Entries.insert key v d) := by
  intro e he
  rcases Entries.mem_insert he with rfl | he
  · exact hkey
  · exact h e he

theorem Undotted.setPath {d : Document} (h : Undotted d) (path : String) (v : Value) :
    Undotted (setPath d path v) := by
  have hall : ∀ k ∈ segments path, '.' ∉ k.toList := fun k => not_mem_segments
  unfold Document.setPath
  match hs : segments path with
  | [] => exact h
  | [k] =>
    rw [hs] at hall
    exact h.insert (hall k List.mem_cons_self) v
  | k :: k' :: ks =>
    rw [hs] at hall
    exact h.insert (hall k List.mem_cons_self) _

/-- The key of a path is no other place than the path. -/
theorem Undotted.atKey? {d : Document} (h : Undotted d) (path : String) :
    Row.atKey? d path = getPath? d path := by
  rw [atKey?_eq]
  by_cases hdot : '.' ∈ path.toList
  · have hnone : d.lookup path = none := by
      rw [List.lookup_eq_none_iff]
      intro e he
      rw [bne_iff_ne]
      rintro rfl
      exact h e he hdot
    rw [hnone, Option.none_or]
  · have hget : getPath? d path = d.lookup path := by
      unfold getPath? Value.getPath?
      rw [segments_of_undotted hdot, Value.atSegments?]
      cases d.lookup path <;> rfl
    rw [hget, Option.or_self]

/-- In a document without nested documents a path leads nowhere but to the key that it is. -/
theorem atKey?_of_flat {d : Document} (h : ∀ e ∈ d, ∀ m, e.2 ≠ .map m) (path : String) :
    Row.atKey? d path = d.lookup path := by
  rw [atKey?_eq]
  cases hkey : d.lookup path with
  | some v => rfl
  | none =>
    rw [Option.none_or]
    unfold getPath? Value.getPath?
    match hs : segments path with
    | [] => exact absurd hs (segments_ne_nil path)
    | [k] =>
      rw [eq_of_segments hs, Value.atSegments?, hkey]
    | k :: k' :: ks =>
      rw [Value.atSegments?]
      cases hk : d.lookup k with
      | none => rfl
      | some v =>
        have hv := h _ (Entries.mem_of_lookup hk)
        cases v with
        | map m => exact absurd rfl (hv m)
        | _ => rfl

end Document
end Polystore
