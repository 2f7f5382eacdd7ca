import Polystore.Documents.Execution
import Polystore.Proofs.Engine.Nesting
import Polystore.Sql.Execution

/-! # Transactions of both kinds of stores

SQL stores and document stores conduct their transactions as their names say, so that every program
over them does. -/

namespace Polystore
set_option autoImplicit false

namespace Sql

/-- A connection, and its transaction, has the number of the calls before it. -/
def Call.act (_ : Nat) : Call → Act
  | connect _ => .connect
  | begin n => .begin n
  | commit n => .commit n
  | rollback n => .rollback n
  | query place _ _ => .run place
  | execute place _ _ => .run place
  | executeReturningKey place _ _ => .run place

theorem request_act (operation : String) (place : Place) (p : Prepared) (kind : ExecKind) (n : Nat) :
    Call.act n (request operation place p kind).call = .run place := by
  cases kind <;> rfl

theorem execution_act {p : Preparer} {operation : String} {op : BindOp} {place : Place}
    {st : Statement} {α : Type} {f : Request interface Outcome → Request interface α}
    {r : Request interface α} (h : (execution p operation op place st).map f = .ok r)
    (hf : ∀ r, (f r).call = r.call) (n : Nat) : Call.act n r.call = .run place := by
  obtain ⟨q, hq, rfl⟩ := map_eq_ok.mp h
  obtain ⟨prepared, -, rfl⟩ := map_eq_ok.mp hq
  rw [hf]
  exact request_act operation place prepared st.exec n

theorem request_read (operation : String) (place : Place) (p : Prepared) (kind : ExecKind)
    (x : interface.Reply (request operation place p kind).call) :
    ∃ o, (request operation place p kind).read x = .ok o := by
  cases kind <;> exact ⟨_, rfl⟩

theorem execution_writing {p : Preparer} {operation : String} {op : BindOp} {tx : Nat}
    {st : Statement} {α : Type} {f : Outcome → α} {r : Request interface α}
    (h : (execution p operation op (.within tx) st).map (·.map f) = .ok r) :
    Writing Call.act tx r := by
  refine ⟨fun n => execution_act h (fun r => rfl) n, ?_⟩
  obtain ⟨q, hq, rfl⟩ := map_eq_ok.mp h
  obtain ⟨prepared, -, rfl⟩ := map_eq_ok.mp hq
  intro x
  obtain ⟨o, ho⟩ := request_read operation (.within tx) prepared st.exec x
  exact ⟨f o, map_eq_ok.mpr ⟨o, ho, rfl⟩⟩

theorem conduct (dialect : Dialect) : Conduct (backend dialect) Call.act where
  opening h n := by
    refine ⟨[connecting h], control "begin" (.begin n), rfl, fun r hr p => ?_, rfl, fun r hr x => ?_⟩
    · obtain rfl := List.mem_singleton.mp hr
      rfl
    · obtain rfl | hr := List.mem_cons.mp hr
      · rfl
      · obtain rfl := List.mem_singleton.mp hr
        rfl
  connecting h r hr := by
    cases List.mem_singleton.mp hr
    exact ⟨fun p => rfl, fun x => rfl⟩
  commit n p := rfl
  committed n x := rfl
  rollback n p := rfl
  select h := execution_act h fun r => rfl
  count h := execution_act h fun r => rfl
  insert h := execution_writing h
  upsert h := execution_writing h
  update h := execution_writing h
  delete h := execution_writing h

end Sql

namespace Documents

/-- A session has the number of the calls before the one that starts it. -/
def Call.act (n : Nat) : Call → Act
  | start _ => .begin n
  | commit session => .commit session
  | abort session => .rollback session
  | find place _ => .run place
  | aggregate place _ _ => .run place
  | count place _ _ => .run place
  | insertOne session _ _ => .run (.within session)
  | updateOne session _ _ _ _ => .run (.within session)
  | updateMany session _ _ _ => .run (.within session)
  | deleteMany session _ _ => .run (.within session)

theorem reading_act (operation : String) (place : Place) (st : Statement) (n : Nat) :
    Call.act n (reading operation place st).call = .run place := by
  cases hst : st.command <;> simp only [reading, hst] <;> rfl

theorem counting_act (place : Place) (st : Statement) (n : Nat) :
    Call.act n (counting place st).call = .run place := by
  cases hst : st.command with
  | aggregate =>
    simp only [counting, hst]
    exact reading_act "count" place st n
  | _ =>
    simp only [counting, hst]
    rfl

theorem conduct : Conduct backend Call.act where
  opening h n := by
    refine ⟨[], control "begin" (.start h), rfl, fun r hr => absurd hr List.not_mem_nil, rfl,
      fun r hr x => ?_⟩
    obtain rfl := List.mem_singleton.mp hr
    rfl
  connecting h r hr := absurd hr List.not_mem_nil
  commit n p := rfl
  committed n x := rfl
  rollback n p := rfl
  select h p := by
    cases h
    exact reading_act "select" _ _ p
  count h p := by
    cases h
    exact counting_act _ _ p
  insert h := by
    obtain ⟨doc, -, rfl⟩ := map_eq_ok.mp h
    exact ⟨fun p => rfl, fun x => ⟨_, rfl⟩⟩
  upsert h := by
    obtain ⟨doc, -, rfl⟩ := map_eq_ok.mp h
    exact ⟨fun p => rfl, fun x => ⟨_, rfl⟩⟩
  update h := by
    obtain ⟨doc, -, rfl⟩ := map_eq_ok.mp h
    split
    · exact ⟨fun p => rfl, fun x => ⟨_, rfl⟩⟩
    · exact ⟨fun p => rfl, fun x => ⟨_, rfl⟩⟩
  delete h := by
    cases h
    exact ⟨fun p => rfl, fun x => ⟨_, rfl⟩⟩

end Documents

/-! ## Programs -/

section
variable {I : Interface} {ι : Type} {store : ι → Backend I} {d : Driver I} {ε α : Type}

/-- A run of a whole program has a trace, in which operations and units do what their contexts say
and transactions are nested and finished once. -/
def Conducted (act : Reading I) (p : Program store d 0 ε α) (w : History d) : Prop :=
  ∃ es, Path act w es (p.run Fin.elim0 w).2 ∧ p.Traced act Fin.elim0 w es ∧ OrderlyFrom [] w es

theorem conducted {act : Reading I} (hstore : ∀ j, Conduct (store j) act)
    (p : Program store d 0 ε α) (w : History d) : Conducted act p w := by
  obtain ⟨es, hpath, hes⟩ := p.emits_run hstore Fin.elim0 w
  exact ⟨es, hpath, hes, hes.orderlyFrom nofun⟩

end

/-- Every program over SQL stores of any dialects, and every one over document stores, conducts its
transactions, from every history of every driver. -/
theorem programs_conducted :
    (∀ {d : Driver Sql.interface} {ε α : Type} (p : Program Sql.backend d 0 ε α) (w : History d),
      Conducted Sql.Call.act p w) ∧
    ∀ {d : Driver Documents.interface} {ε α : Type}
      (p : Program (fun _ : Unit => Documents.backend) d 0 ε α) (w : History d),
      Conducted Documents.Call.act p w :=
  ⟨fun p w => conducted Sql.conduct p w, fun p w => conducted (fun _ => Documents.conduct) p w⟩

end Polystore
