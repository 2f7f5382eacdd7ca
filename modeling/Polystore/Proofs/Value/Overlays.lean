import Polystore.Proofs.Value.Paths

/-! # Overlays

Values written at paths, one after the other. Where the paths lead elsewhere the order does not
matter, and neither does it if the same value is written at its path again. -/

namespace Polystore
set_option autoImplicit false

namespace Document

/-! ## Writing twice -/

section
variable {v w : Value} {d : Document}

theorem child_insert_self (k : String) (m d : Document) :
    child (Entries.insert k (.map m) d) k = m := by
  rw [child, Entries.lookup_insert_self]

theorem child_insert_of_ne {k j : String} (h : j ≠ k) (x : Value) (d : Document) :
    child (Entries.insert k x d) j = child d j := by
  rw [child, child, Entries.lookup_insert_of_ne h]

/-- Writing at keys writes one entry, whose value depends on what stood there. -/
theorem setSegments_cons (v : Value) (k : String) (ks : List String) (d : Document) :
    setSegments v (k :: ks) d =
      Entries.insert k (if ks = [] then v else .map (setSegments v ks (child d k))) d := by
  cases ks with
  | nil => rfl
  | cons k' ks =>
    rw [if_neg (List.cons_ne_nil k' ks), setSegments]
    exact List.cons_ne_nil k' ks

/-- Under other keys than the first of a path nothing is written. -/
theorem lookup_setPath_of_ne {path key : String} (h : (segments path).head? ≠ some key) (v : Value)
    (d : Document) : (d.setPath path v).lookup key = d.lookup key := by
  unfold setPath
  cases hs : segments path with
  | nil => exact absurd hs (segments_ne_nil path)
  | cons k ks =>
    rw [hs] at h
    have hne : key ≠ k := fun heq => h (congrArg some heq.symm)
    rw [setSegments_cons, Entries.lookup_insert_of_ne hne]

theorem setSegments_setSegments (ks : List String) (d : Document) :
    setSegments v ks (setSegments w ks d) = setSegments v ks d := by
  induction ks generalizing d with
  | nil => rfl
  | cons k ks ih =>
    simp only [setSegments_cons]
    by_cases hks : ks = []
    · rw [if_pos hks, if_pos hks, if_pos hks, Entries.insert_insert]
    · rw [if_neg hks, if_neg hks, if_neg hks, child_insert_self, ih, Entries.insert_insert]

theorem setSegments_comm {ks js : List String} (hks : ¬ks <+: js) (hjs : ¬js <+: ks)
    (d : Document) :
    setSegments v ks (setSegments w js d) = setSegments w js (setSegments v ks d) := by
  induction ks generalizing js d with
  | nil => exact absurd List.nil_prefix hks
  | cons k ks ih =>
    cases js with
    | nil => exact absurd List.nil_prefix hjs
    | cons j js =>
      simp only [setSegments_cons]
      by_cases hkj : k = j
      · subst hkj
        rw [List.prefix_cons_inj] at hks hjs
        have hk : ks ≠ [] := fun hnil => hks (hnil ▸ List.nil_prefix)
        have hj : js ≠ [] := fun hnil => hjs (hnil ▸ List.nil_prefix)
        rw [if_neg hk, if_neg hj, if_neg hk, if_neg hj, child_insert_self, child_insert_self,
          ih hks hjs, Entries.insert_insert, Entries.insert_insert]
      · rw [child_insert_of_ne hkj, child_insert_of_ne (Ne.symm hkj), Entries.insert_comm hkj]

theorem setPath_setPath (path : String) (d : Document) :
    (d.setPath path w).setPath path v = d.setPath path v := setSegments_setSegments _ d

theorem setPath_comm {p q : String} (h : Apart p q) (d : Document) :
    (d.setPath q w).setPath p v = (d.setPath p v).setPath q w := setSegments_comm h.1 h.2 d

/-- What is written under a key depends on what stood under it alone. -/
theorem lookup_setPath_congr {d d' : Document} {key : String} (h : d.lookup key = d'.lookup key)
    (path : String) (v : Value) : (d.setPath path v).lookup key = (d'.setPath path v).lookup key := by
  unfold setPath
  cases hs : segments path with
  | nil => exact absurd hs (segments_ne_nil path)
  | cons k ks =>
    rw [setSegments_cons, setSegments_cons]
    by_cases hk : key = k
    · subst hk
      have hchild : child d key = child d' key := by rw [child, child, h]
      rw [Entries.lookup_insert_self, Entries.lookup_insert_self, hchild]
    · rw [Entries.lookup_insert_of_ne hk, Entries.lookup_insert_of_ne hk, h]

end

/-! ## Overlays -/

/-- Writes the values of a list at their paths, one after the other. -/
def overlay (es : List (String × Value)) (d : Document) : Document :=
  es.foldl (fun d e => d.setPath e.1 e.2) d

/-- Two writes that are not in each other's way. -/
def Tolerates (e e' : String × Value) : Prop := e = e' ∨ Apart e.1 e'.1

section
variable {es fs : List (String × Value)} {e : String × Value} {d : Document}

theorem overlay_nil (d : Document) : overlay [] d = d := rfl

theorem overlay_cons (e : String × Value) (es : List (String × Value)) (d : Document) :
    overlay (e :: es) d = overlay es (d.setPath e.1 e.2) := rfl

theorem overlay_append (es fs : List (String × Value)) (d : Document) :
    overlay (es ++ fs) d = overlay fs (overlay es d) := List.foldl_append

theorem Tolerates.comm {e' : String × Value} (h : Tolerates e e') (d : Document) :
    (d.setPath e'.1 e'.2).setPath e.1 e.2 = (d.setPath e.1 e.2).setPath e'.1 e'.2 := by
  obtain rfl | hapart := h
  · rfl
  · exact setPath_comm hapart d

theorem overlay_setPath (h : ∀ x ∈ es, Tolerates x e) :
    overlay es (d.setPath e.1 e.2) = (overlay es d).setPath e.1 e.2 := by
  induction es generalizing d with
  | nil => rfl
  | cons x es ih =>
    obtain ⟨hx, hes⟩ := List.forall_mem_cons.mp h
    rw [overlay_cons, overlay_cons, hx.comm, ih hes]

/-- What is written again later makes no difference. -/
theorem overlay_covers (he : e ∈ es) (h : ∀ x ∈ es, Tolerates x e) :
    overlay es (d.setPath e.1 e.2) = overlay es d := by
  induction es generalizing d with
  | nil => cases he
  | cons x es ih =>
    obtain ⟨hx, hes⟩ := List.forall_mem_cons.mp h
    rw [overlay_cons, overlay_cons]
    cases he with
    | head => rw [setPath_setPath]
    | tail _ hmem => rw [hx.comm, ih hmem hes]

section
variable (hes : ∀ e ∈ es, ∀ e' ∈ es, Tolerates e e')
include hes

theorem overlay_before (h : ∀ e ∈ fs, e ∈ es) : overlay es (overlay fs d) = overlay es d := by
  induction fs generalizing d with
  | nil => rfl
  | cons f fs ih =>
    obtain ⟨hf, hfs⟩ := List.forall_mem_cons.mp h
    rw [overlay_cons, ih hfs, overlay_covers hf fun x hx => hes x hx f hf]

theorem overlay_after (h : ∀ e ∈ fs, e ∈ es) : overlay fs (overlay es d) = overlay es d := by
  induction fs with
  | nil => rfl
  | cons f fs ih =>
    obtain ⟨hf, hfs⟩ := List.forall_mem_cons.mp h
    have htolerates : ∀ x ∈ es, Tolerates x f := fun x hx => hes x hx f hf
    rw [overlay_cons, ← overlay_setPath htolerates, overlay_covers hf htolerates, ih hfs]

/-- Only what is written matters: not the order, and not how often. -/
theorem overlay_eq_of_mem_iff (h : ∀ e, e ∈ fs ↔ e ∈ es) : overlay fs d = overlay es d := by
  have hfs : ∀ e ∈ fs, ∀ e' ∈ fs, Tolerates e e' :=
    fun e he e' he' => hes e ((h e).mp he) e' ((h e').mp he')
  rw [← overlay_before hfs fun e he => (h e).mpr he, overlay_after hes fun e he => (h e).mp he]

theorem getPath?_overlay (he : e ∈ es) : getPath? (overlay es d) e.1 = some e.2 := by
  have hagain : overlay [e] (overlay es d) = overlay es d :=
    overlay_after hes fun x hx => List.mem_singleton.mp hx ▸ he
  rw [← hagain]
  exact getPath?_setPath_self _ e.1 e.2

end

theorem getPath?_overlay_of_apart {path : String} (h : ∀ e ∈ es, Apart e.1 path) :
    getPath? (overlay es d) path = getPath? d path := by
  induction es generalizing d with
  | nil => rfl
  | cons e es ih =>
    obtain ⟨he, hes⟩ := List.forall_mem_cons.mp h
    rw [overlay_cons, ih hes, getPath?_setPath_of_apart he]

theorem lookup_overlay_congr {d d' : Document} {key : String} (h : d.lookup key = d'.lookup key) :
    (overlay es d).lookup key = (overlay es d').lookup key := by
  induction es generalizing d d' with
  | nil => exact h
  | cons e es ih => exact ih (lookup_setPath_congr h e.1 e.2)

theorem Undotted.overlay (h : Undotted d) : Undotted (overlay es d) := by
  induction es generalizing d with
  | nil => exact h
  | cons e es ih => exact ih (h.setPath e.1 e.2)

end
end Document
end Polystore
