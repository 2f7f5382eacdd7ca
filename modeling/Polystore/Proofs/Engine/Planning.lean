import Polystore.Proofs.Engine.Attempts

/-! # Planned statements

What an engine plans for a write are statements that its backend has compiled, each from a write of
the kind under which it is run. -/

namespace Polystore
set_option autoImplicit false

section
variable {I : Interface} {b : Backend I} {e : Engine b} {s : Scope}

theorem plan_compiled {k : Engine.Creation} {p : Payload} {planned : Engine.Planned b}
    (h : e.plan s k p = .ok planned) :
    ∃ w, b.compileWrite s w = .ok planned.statement ∧ w.kind = k.kind := by
  obtain ⟨key, -, hkey⟩ := bind_eq_ok.mp h
  cases k with
  | insert =>
    obtain ⟨w, hw, hcompile⟩ := bind_eq_ok.mp hkey
    obtain ⟨w, -, rfl⟩ := map_eq_ok.mp hw
    obtain ⟨st, hst, hplanned⟩ := bind_eq_ok.mp hcompile
    cases hplanned
    exact ⟨.insert w, hst, rfl⟩
  | upsert =>
    obtain ⟨w, hw, hcompile⟩ := bind_eq_ok.mp hkey
    obtain ⟨w, -, rfl⟩ := map_eq_ok.mp hw
    obtain ⟨st, hst, hplanned⟩ := bind_eq_ok.mp hcompile
    cases hplanned
    exact ⟨.upsert w, hst, rfl⟩

theorem planAll_compiled {k : Engine.Creation} {ps : List Payload}
    {planned : List (Engine.Planned b)} (h : e.planAll s k ps = .ok planned) :
    ∀ p ∈ planned, ∃ w, b.compileWrite s w = .ok p.statement ∧ w.kind = k.kind := by
  induction ps generalizing planned with
  | nil =>
    cases h
    nofun
  | cons p ps ih =>
    obtain ⟨first, hfirst, hnext⟩ := bind_eq_ok.mp h
    obtain ⟨rest, hrest, hplanned⟩ := bind_eq_ok.mp hnext
    cases hplanned
    exact List.forall_mem_cons.mpr ⟨plan_compiled hfirst, ih hrest⟩

theorem planUpdate_compiled {p : Payload} {st : b.Statement} (h : e.planUpdate s p = .ok st) :
    ∃ w, b.compileWrite s w = .ok st ∧ w.kind = .update := by
  obtain ⟨w, -, hst⟩ := bind_eq_ok.mp h
  exact ⟨.update w, hst, rfl⟩

theorem planUpdates_compiled {ps : List Payload} {sts : List b.Statement}
    (h : e.planUpdates s ps = .ok sts) :
    ∀ st ∈ sts, ∃ w, b.compileWrite s w = .ok st ∧ w.kind = .update := by
  induction ps generalizing sts with
  | nil =>
    cases h
    nofun
  | cons p ps ih =>
    obtain ⟨first, hfirst, hnext⟩ := bind_eq_ok.mp h
    obtain ⟨rest, hrest, hsts⟩ := bind_eq_ok.mp hnext
    cases hsts
    exact List.forall_mem_cons.mpr ⟨planUpdate_compiled hfirst, ih hrest⟩

theorem statements_compiled {t : Target} {op : Operation} {sts : List (WriteKind × b.Statement)}
    (h : op.statements e t = .ok sts) :
    ∀ st ∈ sts, ∃ s w, b.compileWrite s w = .ok st.2 ∧ w.kind = st.1 := by
  cases op with
  | select q =>
    cases h
    nofun
  | selectForeign q =>
    cases h
    nofun
  | count q =>
    cases h
    nofun
  | create k p =>
    obtain ⟨s, -, hs⟩ := bind_eq_ok.mp h
    obtain ⟨planned, hplanned, hsts⟩ := bind_eq_ok.mp hs
    cases hsts
    exact List.forall_mem_singleton.mpr ⟨s, plan_compiled hplanned⟩
  | createAll k ps =>
    obtain ⟨s, -, hs⟩ := bind_eq_ok.mp h
    obtain ⟨planned, hplanned, hsts⟩ := bind_eq_ok.mp hs
    cases hsts
    exact List.forall_mem_map.mpr fun p hp => ⟨s, planAll_compiled hplanned p hp⟩
  | update p =>
    obtain ⟨s, -, hs⟩ := bind_eq_ok.mp h
    obtain ⟨st, hst, hsts⟩ := bind_eq_ok.mp hs
    cases hsts
    exact List.forall_mem_singleton.mpr ⟨s, planUpdate_compiled hst⟩
  | updateAll ps =>
    obtain ⟨s, -, hs⟩ := bind_eq_ok.mp h
    obtain ⟨sts', hsts', hsts⟩ := bind_eq_ok.mp hs
    cases hsts
    exact List.forall_mem_map.mpr fun st hst => ⟨s, planUpdates_compiled hsts' st hst⟩
  | updateWhere p q =>
    obtain ⟨s, -, hs⟩ := bind_eq_ok.mp h
    obtain ⟨f, -, hf⟩ := bind_eq_ok.mp hs
    obtain ⟨w, -, hw⟩ := bind_eq_ok.mp hf
    obtain ⟨st, hst, hsts⟩ := bind_eq_ok.mp hw
    cases hsts
    exact List.forall_mem_singleton.mpr ⟨s, .update w, hst, rfl⟩
  | deleteWhere q =>
    obtain ⟨s, -, hs⟩ := bind_eq_ok.mp h
    obtain ⟨f, -, hf⟩ := bind_eq_ok.mp hs
    obtain ⟨w, -, hw⟩ := bind_eq_ok.mp hf
    obtain ⟨st, hst, hsts⟩ := bind_eq_ok.mp hw
    cases hsts
    exact List.forall_mem_singleton.mpr ⟨s, .delete w, hst, rfl⟩

end
end Polystore
