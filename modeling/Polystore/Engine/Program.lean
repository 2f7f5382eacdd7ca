import Polystore.Engine.Operations

/-! # Programs

Operations and units of work as data. The steps of a unit run one after the other in the context
of the unit; the first failure that is not caught ends it. -/

namespace Polystore
set_option autoImplicit false

inductive Operation where
  | select (q : Query)
  /-- Into a type that the decoder does not make. -/
  | selectForeign (q : Query)
  | count (q : Query)
  | create (k : Engine.Creation) (p : Payload)
  | createAll (k : Engine.Creation) (ps : List Payload)
  | update (p : Payload)
  | updateAll (ps : List Payload)
  | updateWhere (p : Payload) (q : Query)
  | deleteWhere (q : Query)

inductive Result where
  | done
  | number (n : UInt64)
  | documents (ds : List Document)
  | payload (p : Payload)
  | payloads (ps : List Payload)
  /-- Whether the context has a transaction, and whether it belongs to the engine. -/
  | context (active own : Bool)
  | unit (rs : List Result)
  /-- A unit that failed after some results. -/
  | brokenUnit (rs : List Result) (e : Error)
  | failed (e : Error)

inductive Step {I : Interface} (b : Backend I) (d : Driver I) where
  | operation (e : Engine b) (t : Target) (op : Operation)
  /-- What others do to the store. -/
  | outside (change : d.State → d.State)
  | context (e : Engine b)
  /-- A failure that was found before the step and ends nothing. -/
  | known (err : Error)
  | caught (s : Step b d)
  /-- A unit of work, which may fail by itself when its steps are done. A reported failure ends
  nothing outside of the unit. -/
  | unit (e : Engine b) (p : Propagation) (steps : List (Step b d)) (failure : Option Error)
      (reported : Bool)

variable {I : Interface} {b : Backend I} {d : Driver I}

namespace Operation

def give {α : Type} (f : α → Result) (m : Run d Error α) : Run d Error Result := do
  let a ← m
  Run.done (f a)

def run (e : Engine b) (c : Context) (t : Target) : Operation → Run d Error Result
  | select q => give .documents (e.select c t q)
  | selectForeign q => give (fun () => .documents []) (e.selectForeign c t q)
  | count q => give .number (e.count c t q)
  | create k p => give .payload (e.create k c t p)
  | createAll k ps => give .payloads (e.createAll k c t ps)
  | update p => give .number (e.update c t p)
  | updateAll ps => give .number (e.updateAll c t ps)
  | updateWhere p q => give .number (e.updateWhere c t p q)
  | deleteWhere q => give .number (e.deleteWhere c t q)

end Operation

namespace Step

def catching {ε : Type} (f : ε → Result) (m : Run d ε Result) : Run d Error Result := fun w =>
  match m w with
  | (.ok r, w) => (.ok r, w)
  | (.error e, w) => (.ok (f e), w)

def broken (reported : Bool) (rs : List Result) (e : Error) : Except Error Result :=
  if reported then .ok (.brokenUnit rs e) else .error e

/-- The end of a unit of work, whose failures come with the results before them. -/
def conclude (reported : Bool) (m : Run d (List Result × Error) (List Result)) :
    Run d Error Result := fun w =>
  match m w with
  | (.ok rs, w) => (.ok (.unit rs), w)
  | (.error (rs, e), w) => (broken reported rs e, w)

mutual
def run (c : Context) : Step b d → Run d Error Result
  | operation e t op => op.run e c t
  | outside change => fun w => (.ok .done, ⟨change w.state, w.calls⟩)
  | context e => Run.done (.context c.tx.isSome (c.owner == e.id))
  | known err => Run.done (.failed err)
  | caught s => catching .failed (s.run c)
  | unit e p steps failure reported =>
    conclude reported (e.inTx (fun rs err => (rs.getD [], err)) c p fun c => runAll c [] failure steps)
def runAll (c : Context) (rs : List Result) (failure : Option Error) :
    List (Step b d) → Run d (List Result × Error) (List Result)
  | [] => fun w =>
    match failure with
    | none => (.ok rs, w)
    | some e => (.error (rs, e), w)
  | s :: ss => fun w =>
    match s.run c w with
    | (.ok r, w) => runAll c (rs ++ [r]) failure ss w
    | (.error e, w) => (.error (rs, e), w)
end

end Step
end Polystore
