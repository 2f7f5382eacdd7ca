import Mathlib.Data.List.Dedup
import Mathlib.Data.List.Induction
import Mathlib.Data.List.Nodup
import Mathlib.Data.List.Perm.Basic
import Polystore.Entries

/-! # Order of entries

Entries that are put in one after the other are sorted, and sorted entries stay as they are. -/

namespace Polystore.Entries
set_option autoImplicit false

section
variable {α : Type} {key : String} {v : α} {es : Entries α}

theorem lt_of_ne_of_not_lt {a b : String} (hne : a ≠ b) (hlt : ¬a < b) : b < a := by
  have hle : b ≤ a := String.not_lt.mp hlt
  apply String.not_le.mp
  intro hab
  exact hne (String.le_antisymm hab hle)

theorem sorted_nil : Sorted ([] : Entries α) := List.Pairwise.nil

theorem sorted_cons {e : String × α} :
    Sorted (e :: es) ↔ (∀ x ∈ es, e.1 < x.1) ∧ Sorted es := by
  unfold Sorted
  rw [List.map_cons, List.pairwise_cons]
  simp only [List.mem_map, forall_exists_index, and_imp, forall_apply_eq_imp_iff₂]

theorem mem_insert {x : String × α} (h : x ∈ insert key v es) : x = (key, v) ∨ x ∈ es := by
  induction es with
  | nil => exact .inl (List.mem_singleton.mp h)
  | cons e r ih =>
    unfold insert at h
    split at h
    · rcases List.mem_cons.mp h with hx | hr
      · exact .inl hx
      · exact .inr (List.mem_cons_of_mem e hr)
    · split at h
      · rcases List.mem_cons.mp h with hx | hr
        · exact .inl hx
        · exact .inr hr
      · rcases List.mem_cons.mp h with hx | hr
        · exact .inr (hx ▸ List.mem_cons_self)
        · exact (ih hr).imp id (List.mem_cons_of_mem e)

theorem mem_insert_self (key : String) (v : α) (es : Entries α) : (key, v) ∈ insert key v es := by
  induction es with
  | nil => exact List.mem_cons_self
  | cons e r ih =>
    unfold insert
    split
    · exact List.mem_cons_self
    · split
      · exact List.mem_cons_self
      · exact List.mem_cons_of_mem e ih

theorem mem_insert_of_mem {x : String × α} (hx : x ∈ es) (hne : x.1 ≠ key) :
    x ∈ insert key v es := by
  induction es with
  | nil => cases hx
  | cons e r ih =>
    unfold insert
    split
    · rename_i heq
      rcases List.mem_cons.mp hx with rfl | hr
      · exact absurd heq.symm hne
      · exact List.mem_cons_of_mem _ hr
    · split
      · exact List.mem_cons_of_mem _ hx
      · rcases List.mem_cons.mp hx with rfl | hr
        · exact List.mem_cons_self
        · exact List.mem_cons_of_mem e (ih hr)

theorem sorted_insert (h : Sorted es) : Sorted (insert key v es) := by
  induction es with
  | nil => exact sorted_cons.mpr ⟨nofun, sorted_nil⟩
  | cons e r ih =>
    obtain ⟨hfirst, hrest⟩ := sorted_cons.mp h
    unfold insert
    split
    · rename_i heq
      subst heq
      exact sorted_cons.mpr ⟨hfirst, hrest⟩
    · rename_i hne
      split
      · rename_i hlt
        refine sorted_cons.mpr ⟨?_, h⟩
        intro x hx
        rcases List.mem_cons.mp hx with rfl | hx
        · exact hlt
        · exact String.lt_trans hlt (hfirst x hx)
      · rename_i hlt
        refine sorted_cons.mpr ⟨?_, ih hrest⟩
        intro x hx
        rcases mem_insert hx with rfl | hx
        · exact lt_of_ne_of_not_lt hne hlt
        · exact hfirst x hx

/-- A key behind all others goes to the end. -/
theorem insert_last (h : ∀ x ∈ es, x.1 < key) : insert key v es = es ++ [(key, v)] := by
  induction es with
  | nil => rfl
  | cons e r ih =>
    obtain ⟨hfirst, hrest⟩ := List.forall_mem_cons.mp h
    have hne : key ≠ e.1 := by
      intro heq
      rw [heq] at hfirst
      exact String.lt_irrefl _ hfirst
    unfold insert
    rw [if_neg hne, if_neg (String.lt_asymm hfirst), ih hrest]
    rfl

/-- The key that was put in has its value, whatever it had before. -/
theorem lookup_insert_self : (insert key v es).lookup key = some v := find?_insert_self key v es

theorem lookup_insert_of_ne {other : String} (h : other ≠ key) :
    (insert key v es).lookup other = es.lookup other := find?_insert_of_ne v es h

/-! ## Entries that are put in twice or in another order -/

section
variable {a b : String} {w : α}

theorem insert_cons_self {x : α} : insert a v ((a, x) :: es) = (a, v) :: es := by
  rw [insert, if_pos rfl]

theorem insert_cons_of_lt {k : String} {x : α} (h : a < k) :
    insert a v ((k, x) :: es) = (a, v) :: (k, x) :: es := by
  have hne : a ≠ k := by
    rintro rfl
    exact String.lt_irrefl a h
  rw [insert, if_neg hne, if_pos h]

theorem insert_cons_of_gt {k : String} {x : α} (h : k < a) :
    insert a v ((k, x) :: es) = (k, x) :: insert a v es := by
  have hne : a ≠ k := by
    rintro rfl
    exact String.lt_irrefl a h
  rw [insert, if_neg hne, if_neg (String.lt_asymm h)]

theorem insert_insert : insert a v (insert a w es) = insert a v es := by
  induction es with
  | nil => exact insert_cons_self
  | cons e r ih =>
    obtain ⟨k, x⟩ := e
    by_cases hk : a = k
    · subst hk
      rw [insert_cons_self, insert_cons_self, insert_cons_self]
    · by_cases hlt : a < k
      · rw [insert_cons_of_lt hlt, insert_cons_of_lt hlt, insert_cons_self]
      · have hgt := lt_of_ne_of_not_lt hk hlt
        rw [insert_cons_of_gt hgt, insert_cons_of_gt hgt, insert_cons_of_gt hgt, ih]

theorem insert_comm_of_lt (h : a < b) :
    insert a v (insert b w es) = insert b w (insert a v es) := by
  induction es with
  | nil =>
    have hbehind : insert b w [(a, v)] = [(a, v), (b, w)] := insert_cons_of_gt h
    exact (insert_cons_of_lt h).trans hbehind.symm
  | cons e r ih =>
    obtain ⟨k, x⟩ := e
    by_cases hak : a = k
    · subst hak
      rw [insert_cons_of_gt h, insert_cons_self, insert_cons_self, insert_cons_of_gt h]
    · by_cases hlt : a < k
      · -- The smaller key goes in front, whatever the larger one does behind it.
        rw [insert_cons_of_lt hlt, insert_cons_of_gt h]
        by_cases hbk : b = k
        · subst hbk
          rw [insert_cons_self, insert_cons_of_lt h]
        · by_cases hblt : b < k
          · rw [insert_cons_of_lt hblt, insert_cons_of_lt h]
          · rw [insert_cons_of_gt (lt_of_ne_of_not_lt hbk hblt), insert_cons_of_lt hlt]
      · have hka := lt_of_ne_of_not_lt hak hlt
        have hkb := String.lt_trans hka h
        rw [insert_cons_of_gt hkb, insert_cons_of_gt hka, insert_cons_of_gt hka,
          insert_cons_of_gt hkb, ih]

theorem insert_comm (h : a ≠ b) : insert a v (insert b w es) = insert b w (insert a v es) := by
  by_cases hlt : a < b
  · exact insert_comm_of_lt hlt
  · exact (insert_comm_of_lt (lt_of_ne_of_not_lt h hlt)).symm

end

/-- A new key goes between the entries that it finds. -/
theorem insert_new (h : key ∉ keys es) (v : α) :
    ∃ before after, es = before ++ after ∧ insert key v es = before ++ (key, v) :: after := by
  induction es with
  | nil => exact ⟨[], [], rfl, rfl⟩
  | cons e r ih =>
    obtain ⟨k, x⟩ := e
    obtain ⟨hne, hrest⟩ := List.ne_and_not_mem_of_not_mem_cons h
    by_cases hlt : key < k
    · exact ⟨[], (k, x) :: r, rfl, insert_cons_of_lt hlt⟩
    · obtain ⟨before, after, rfl, hinsert⟩ := ih hrest
      refine ⟨(k, x) :: before, after, rfl, ?_⟩
      rw [insert_cons_of_gt (lt_of_ne_of_not_lt hne hlt), hinsert]
      rfl

theorem mem_insert_new (h : key ∉ keys es) {x : String × α} :
    x ∈ insert key v es ↔ x = (key, v) ∨ x ∈ es := by
  obtain ⟨before, after, rfl, hinsert⟩ := insert_new h v
  rw [hinsert, List.mem_append, List.mem_cons, List.mem_append, or_left_comm]

/-! ## Lists of entries -/

theorem mem_of_lookup {l : List (String × α)} (h : l.lookup key = some v) : (key, v) ∈ l := by
  obtain ⟨l₁, l₂, rfl, -⟩ := List.lookup_eq_some_iff.mp h
  exact List.mem_append_right _ List.mem_cons_self

theorem lookup_eq_none_iff : es.lookup key = none ↔ key ∉ keys es := by
  rw [List.lookup_eq_none_iff, keys, List.mem_map, not_exists]
  simp only [bne_iff_ne, ne_eq, not_and]
  exact ⟨fun h e he heq => h e he heq.symm, fun h e he heq => h e he heq.symm⟩

theorem hasKey_iff : hasKey key es = true ↔ key ∈ keys es := by
  rw [← not_iff_not, ← lookup_eq_none_iff, hasKey, Option.not_isSome_iff_eq_none]

theorem mem_keys_insert {k : String} : k ∈ keys (insert key v es) ↔ k = key ∨ k ∈ keys es := by
  rw [← hasKey_iff, ← hasKey_iff, hasKey, hasKey]
  by_cases hk : k = key
  · subst hk
    simp [lookup_insert_self]
  · simp [lookup_insert_of_ne hk, hk]

theorem lookup_of_mem {l : List (String × α)} (hnodup : (l.map (·.1)).Nodup)
    (hmem : (key, v) ∈ l) : l.lookup key = some v := by
  induction l with
  | nil => cases hmem
  | cons e l ih =>
    rw [List.map_cons, List.nodup_cons] at hnodup
    rcases List.mem_cons.mp hmem with rfl | hmem
    · rw [List.lookup_cons_self]
    · have hne : (key == e.1) = false := by
        rw [beq_eq_false_iff_ne]
        rintro rfl
        exact hnodup.1 (List.mem_map.mpr ⟨_, hmem, rfl⟩)
      rw [List.lookup_cons, hne]
      exact ih hnodup.2 hmem

/-- Where no key is repeated the order of the entries does not matter. -/
theorem lookup_of_perm {l l' : List (String × α)} (hnodup : (l'.map (·.1)).Nodup)
    (h : l.Perm l') (key : String) : l.lookup key = l'.lookup key := by
  have hnodup' : (l.map (·.1)).Nodup := (h.map (·.1)).nodup_iff.mpr hnodup
  cases hkey : l'.lookup key with
  | none =>
    have hkeys : key ∉ keys l' := lookup_eq_none_iff.mp hkey
    exact lookup_eq_none_iff.mpr fun hmem => hkeys ((h.map (·.1)).mem_iff.mp hmem)
  | some v => exact lookup_of_mem hnodup' (h.mem_iff.mpr (mem_of_lookup hkey))

theorem mem_foldl_insert {acc : Entries α} {l : List (String × α)} {x : String × α}
    (h : x ∈ l.foldl (fun acc e => insert e.1 e.2 acc) acc) : x ∈ acc ∨ x ∈ l := by
  induction l generalizing acc with
  | nil => exact .inl h
  | cons e l ih =>
    rcases ih h with hacc | hl
    · rcases mem_insert hacc with rfl | hmem
      · exact .inr List.mem_cons_self
      · exact .inl hmem
    · exact .inr (List.mem_cons_of_mem e hl)

theorem mem_ofList {l : List (String × α)} {x : String × α} (h : x ∈ ofList l) : x ∈ l :=
  (mem_foldl_insert h).resolve_left List.not_mem_nil

/-- Where each key comes with one value no entry is lost. -/
theorem mem_ofList_of_agree {l : List (String × α)}
    (hagree : ∀ e ∈ l, ∀ e' ∈ l, e.1 = e'.1 → e = e') {x : String × α} (hx : x ∈ l) :
    x ∈ ofList l := by
  have hfold : ∀ (r : List (String × α)) (acc : Entries α), (∀ e ∈ r, e ∈ l) → x ∈ acc ∨ x ∈ r →
      x ∈ r.foldl (fun acc e => insert e.1 e.2 acc) acc := by
    intro r
    induction r with
    | nil => exact fun acc _ hacc => hacc.resolve_right List.not_mem_nil
    | cons e r ih =>
      intro acc hr hacc
      obtain ⟨he, hr⟩ := List.forall_mem_cons.mp hr
      refine ih _ hr ?_
      by_cases hkey : x.1 = e.1
      · cases hagree x hx e he hkey
        exact .inl (mem_insert_self _ _ acc)
      · refine hacc.imp (fun hmem => mem_insert_of_mem hmem hkey) fun hmem => ?_
        exact (List.mem_cons.mp hmem).resolve_left fun heq => hkey (congrArg Prod.fst heq)
  exact hfold l [] (fun _ => id) (.inr hx)

theorem mem_ofList_of_mem {l : List (String × α)} (hnodup : (l.map (·.1)).Nodup)
    {x : String × α} (hx : x ∈ l) : x ∈ ofList l :=
  mem_ofList_of_agree (fun _ he _ he' hkey => List.inj_on_of_nodup_map hnodup he he' hkey) hx

/-- Where the values depend on the keys alone it does not matter which entry of a key is the last.
-/
theorem lookup_ofList_map {keys : List String} (f : String → α) (hmem : key ∈ keys) :
    (ofList (keys.map fun k => (k, f k))).lookup key = some (f key) := by
  have hfold : ∀ acc : Entries α, acc.lookup key = some (f key) ∨ key ∈ keys →
      ((keys.map fun k => (k, f k)).foldl (fun acc e => insert e.1 e.2 acc) acc).lookup key =
        some (f key) := by
    clear hmem
    induction keys with
    | nil => exact fun acc hacc => hacc.resolve_right List.not_mem_nil
    | cons k keys ih =>
      intro acc hacc
      apply ih
      by_cases hk : key = k
      · subst hk
        exact .inl (find?_insert_self key (f key) acc)
      · refine hacc.imp (fun hlookup => ?_) fun hmem => (List.mem_cons.mp hmem).resolve_left hk
        exact (find?_insert_of_ne (f k) acc hk).trans hlookup
  exact hfold [] (.inr hmem)

theorem sorted_ofList (l : List (String × α)) : Sorted (ofList l) := by
  have hfold : ∀ acc : Entries α, Sorted acc →
      Sorted (l.foldl (fun acc e => insert e.1 e.2 acc) acc) := by
    induction l with
    | nil => exact fun acc hacc => hacc
    | cons e l ih => exact fun acc hacc => ih _ (sorted_insert hacc)
  exact hfold [] sorted_nil

theorem foldl_insert_sorted {acc l : Entries α} (h : Sorted (acc ++ l)) :
    l.foldl (fun acc e => insert e.1 e.2 acc) acc = acc ++ l := by
  induction l generalizing acc with
  | nil => rw [List.foldl_nil, List.append_nil]
  | cons e l ih =>
    have hlast : ∀ x ∈ acc, x.1 < e.1 := by
      intro x hx
      unfold Sorted at h
      rw [List.map_append, List.pairwise_append] at h
      exact h.2.2 _ (List.mem_map_of_mem hx) _ (List.mem_map_of_mem List.mem_cons_self)
    have hsplit : acc ++ e :: l = (acc ++ [e]) ++ l := by
      rw [List.append_assoc, List.singleton_append]
    rw [List.foldl_cons, insert_last hlast, hsplit]
    rw [hsplit] at h
    exact ih h

theorem ofList_of_sorted (h : Sorted es) : ofList es = es := foldl_insert_sorted h

/-- Values can be changed before or after the entries are sorted. -/
theorem insert_map {β : Type} (f : α → β) :
    insert key (f v) (es.map fun e => (e.1, f e.2)) =
      (insert key v es).map fun e => (e.1, f e.2) := by
  induction es with
  | nil => rfl
  | cons e es ih =>
    obtain ⟨k, w⟩ := e
    by_cases hkey : key = k
    · simp [insert, hkey]
    · by_cases hlt : key < k
      · simp [insert, hkey, hlt]
      · simp [insert, hkey, hlt, ih]

theorem ofList_concat (l : List (String × α)) (e : String × α) :
    ofList (l ++ [e]) = insert e.1 e.2 (ofList l) := List.foldl_concat ..

theorem ofList_map {β : Type} (f : α → β) (l : List (String × α)) :
    ofList (l.map fun e => (e.1, f e.2)) = (ofList l).map fun e => (e.1, f e.2) := by
  induction l using List.reverseRecOn with
  | nil => rfl
  | append_singleton l e ih =>
    rw [List.map_append, List.map_singleton, ofList_concat, ofList_concat, ih]
    exact insert_map f

theorem nodup_keys (h : Sorted es) : (es.map (·.1)).Nodup := by
  apply List.Pairwise.imp _ h
  intro a b hlt heq
  rw [heq] at hlt
  exact String.lt_irrefl b hlt

/-- Of the entries with one key the last one stays. -/
theorem lookup_ofList (l : List (String × α)) (key : String) :
    (ofList l).lookup key = l.reverse.lookup key := by
  induction l using List.reverseRecOn with
  | nil => rfl
  | append_singleton l e ih =>
    rw [List.reverse_concat, List.lookup_cons, ofList_concat]
    by_cases hkey : key = e.1
    · subst hkey
      rw [lookup_insert_self, beq_self_eq_true]
    · rw [lookup_insert_of_ne hkey, beq_eq_false_iff_ne.mpr hkey]
      exact ih

theorem mem_keys_ofList {l : List (String × α)} : key ∈ keys (ofList l) ↔ key ∈ keys l := by
  have hreverse : key ∈ keys l.reverse ↔ key ∈ keys l := by simp [keys]
  rw [← not_iff_not, ← lookup_eq_none_iff, lookup_ofList, lookup_eq_none_iff, hreverse]

theorem perm_ofList {l : List (String × α)} (h : (keys l).Nodup) : (ofList l).Perm l := by
  have hsorted := nodup_keys (sorted_ofList l)
  refine (List.perm_ext_iff_of_nodup hsorted.of_map h.of_map).mpr fun x => ?_
  exact ⟨mem_ofList, mem_ofList_of_mem h⟩

/-- No entry is lost if no key is repeated. -/
theorem length_ofList {l : List (String × α)} : (ofList l).length = l.length ↔ (keys l).Nodup := by
  constructor
  · intro hlength
    have hperm : (keys (ofList l)).Perm (keys l).dedup :=
      (List.perm_ext_iff_of_nodup (nodup_keys (sorted_ofList l)) (List.nodup_dedup _)).mpr
        fun k => mem_keys_ofList.trans List.mem_dedup.symm
    have hdedup : (keys l).dedup.length = (keys l).length := by
      rw [← hperm.length_eq, keys, keys, List.length_map, List.length_map, hlength]
    rw [← (List.dedup_sublist (keys l)).eq_of_length hdedup]
    exact List.nodup_dedup _
  · exact fun h => (perm_ofList h).length_eq
end
end Polystore.Entries
