import Polystore.Proofs.Documents.Matching
import Polystore.Proofs.Documents.Placing

/-! # Tests for equality

A test for equality has what its operand is stored as at the path. The store compares with it unless
it is a document with a key that begins with `$`, which it runs as operators. The operands that come
to this are those of JSON fields and of maps that have such keys. -/

namespace Polystore.Documents
set_option autoImplicit false

open UserType (convertEntries encodeNative entries?)

/-! ## Operators -/

def isOperatorKey (key : String) : Bool := Text.startsWith "$" key

/-- Whether the store runs a test instead of comparing with it. -/
def isOperators : Value → Bool
  | .map m => m.any fun e => isOperatorKey e.1
  | _ => false

/-- The text that a key is converted to. -/
def keyText? (convertKey : Value → Except CodecError Value) (key : String) : Option String :=
  (convertKey (.str key)).toOption.map Value.text

/-- The keys of the document that a type encodes a value to; none if it encodes it to anything
else. -/
def encodedKeys : UserType → Value → List String
  | .nativeJson, v => ((encodeNative v).map?.getD []).map (·.1)
  | .map _ key _, v => (Entries.keys ((entries? v).getD [])).filterMap (keyText? key.encode)
  | _, _ => []

def operandKeys (typeId : String) (v : Value) : List String :=
  match types.get typeId with
  | .ok u => encodedKeys u v
  | .error _ => []

/-- What a path is tested for equality with: null, or the stored form of an operand. It is run by the
store if the operand has the key of an operator. -/
structure EqualityTest (path typeId : String) (v test : Value) : Prop where
  stored : v.isNull = true ∧ test = .null ∨
    ∃ w, types.encode typeId v = .ok w ∧ test = storedForm path typeId w
  operators : isOperators test = (operandKeys typeId v).any isOperatorKey

/-! ## Encoded documents -/

section
variable {u : UserType} {v w : Value}

theorem isOperators_map (m : Document) :
    isOperators (.map m) = (Entries.keys m).any isOperatorKey := by
  rw [isOperators, Entries.keys, List.any_map]
  rfl

/-- The keys of converted entries are the texts of the converted keys. -/
theorem mem_keys_convertEntries {convert convertKey : Value → Except CodecError Value}
    {done m : Document} {es : List (String × Value)}
    (h : convertEntries convert convertKey done es = .ok m) (k : String) :
    k ∈ Entries.keys m ↔ k ∈ Entries.keys done ∨
      k ∈ (Entries.keys es).filterMap (keyText? convertKey) := by
  induction es generalizing done with
  | nil =>
    cases h
    simp [Entries.keys]
  | cons e es ih =>
    obtain ⟨key, hkey, h⟩ := bind_eq_ok.mp h
    obtain ⟨x, -, h⟩ := bind_eq_ok.mp h
    have hhead : keyText? convertKey e.1 = some key.text := by
      rw [keyText?, hkey]
      rfl
    have hkeys : (Entries.keys (e :: es)).filterMap (keyText? convertKey) =
        key.text :: (Entries.keys es).filterMap (keyText? convertKey) :=
      List.filterMap_cons_some hhead
    rw [ih h, Entries.mem_keys_insert, hkeys, List.mem_cons, or_assoc, or_left_comm]

/-- An encoded value is run by the store if it is a document with the key of an operator. -/
theorem isOperators_encode (h : u.encode v = .ok w) :
    isOperators w = (encodedKeys u v).any isOperatorKey := by
  cases u with
  | scalar s =>
    by_cases hs : s = .json
    · subst hs
      have hw : w = Scalar.encodeTree v := (Except.ok.inj h).symm
      rw [hw]
      cases v <;> rfl
    · have hencoded := scalar_encoded hs h
      cases hencoded <;> rfl
  | nativeJson =>
    cases h
    cases hw : encodeNative v with
    | map m =>
      rw [isOperators_map, encodedKeys, hw]
      rfl
    | _ =>
      rw [encodedKeys, hw]
      rfl
  | collection id kind elem =>
    unfold UserType.encode UserType.convertCollection at h
    split at h
    · cases h
      rfl
    · obtain ⟨ws, -, rfl⟩ := map_eq_ok.mp h
      rfl
  | map id key value =>
    unfold UserType.encode UserType.convertMap at h
    split at h
    · rename_i hnull
      cases h
      cases v with
      | null => rfl
      | _ => cases hnull
    · split at h
      · cases h
      · rename_i es hes
        obtain ⟨m, hm, rfl⟩ := map_eq_ok.mp h
        rw [isOperators_map, encodedKeys, hes, Option.getD_some, Bool.eq_iff_iff,
          List.any_eq_true, List.any_eq_true]
        have hnone : Entries.keys ([] : Document) = [] := rfl
        simp only [mem_keys_convertEntries hm, hnone, List.not_mem_nil, false_or]

theorem isOperators_storedForm (path typeId : String) (w : Value) :
    isOperators (storedForm path typeId w) = isOperators w := by
  unfold storedForm
  split
  · cases w <;> rfl
  · rfl

theorem EqualityTest.of_operand {path typeId : String} {test : Value}
    (h : operand path typeId v = .ok test) : EqualityTest path typeId v test := by
  obtain ⟨w, hw, rfl⟩ := stored_form h
  refine ⟨.inr ⟨w, hw, rfl⟩, ?_⟩
  obtain ⟨u, hu, hencode⟩ : ∃ u, types.get typeId = .ok u ∧ u.encode v = .ok w := bind_eq_ok.mp hw
  rw [isOperators_storedForm, isOperators_encode hencode, operandKeys, hu]

theorem EqualityTest.of_null {path typeId : String} (hnull : v.isNull = true) :
    EqualityTest path typeId v .null := by
  cases v with
  | null =>
    refine ⟨.inl ⟨rfl, rfl⟩, ?_⟩
    unfold operandKeys
    split
    · rename_i u _
      cases u <;> rfl
    · rfl
  | _ => cases hnull

end

/-! ## Conditions -/

section
variable {s : Scope} {c : Condition} {negate : Bool} {d : Document}

theorem condition_eq (hop : c.operator = .eq) (h : condition s c negate = .ok d) :
    ∃ typeId test, s.scalarType .filter c.property = .ok typeId ∧
      d = asNegated (c.negated ^^ negate) (entry (pathOf s.view c.property) test) ∧
      EqualityTest (pathOf s.view c.property) typeId c.value test := by
  unfold condition at h
  obtain ⟨typeId, htype, h⟩ := bind_eq_ok.mp h
  rw [hop] at h
  obtain ⟨d, hd, rfl⟩ := map_eq_ok.mp h
  unfold equality at hd
  split at hd
  · rename_i hnull
    cases hd
    exact ⟨typeId, .null, htype, rfl, .of_null hnull⟩
  · obtain ⟨test, htest, rfl⟩ := map_eq_ok.mp hd
    exact ⟨typeId, test, htype, rfl, .of_operand htest⟩

theorem condition_jsonValueEq (hop : c.operator = .jsonValueEq)
    (h : condition s c negate = .ok d) :
    ∃ typeId jsonPath v test, s.scalarType .filter c.property = .ok typeId ∧
      JsonPath.operand? c.value = some (jsonPath, v) ∧
      d = asNegated (c.negated ^^ negate)
        (entry (childPath (pathOf s.view c.property) jsonPath) test) ∧
      EqualityTest (childPath (pathOf s.view c.property) jsonPath) typeId v test := by
  unfold condition at h
  obtain ⟨typeId, htype, h⟩ := bind_eq_ok.mp h
  rw [hop] at h
  obtain ⟨d, hd, rfl⟩ := map_eq_ok.mp h
  unfold jsonValueTest at hd
  split at hd
  · cases hd
  · rename_i jsonPath v hvalue
    obtain ⟨test, htest, rfl⟩ := map_eq_ok.mp hd
    exact ⟨typeId, jsonPath, v, test, htype, hvalue, rfl, .of_operand htest⟩

end

/-! ## Seek pages -/

/-- A sort field is tested for equality with its value in the last row. -/
def TestsSought (s : Scope) (after : Entries Value) (f : SortField) (d : Document) : Prop :=
  ∃ v typeId test, after.lookup f.field = some v ∧ s.scalarType .sort f.field = .ok typeId ∧
    d = entry (pathOf s.view f.field) test ∧ EqualityTest (pathOf s.view f.field) typeId v test

/-- The tests of a term: of the earlier fields for equality, of the last one for a later value. -/
def SeekTerm (s : Scope) (after : Entries Value) (earlier : List SortField) (last : SortField)
    (tests : List Document) : Prop :=
  ∃ equalities w, tests = equalities ++ [testBy (pathOf s.view last.field) (laterKey last.dir) w] ∧
    List.Forall₂ (TestsSought s after) earlier equalities

/-- Each sort field with the fields before it. -/
def splits (earlier : List SortField) : List SortField → List (List SortField × SortField)
  | [] => []
  | f :: fs => (earlier, f) :: splits (earlier ++ [f]) fs

section
variable {s : Scope} {after : Entries Value} {earlier fs : List SortField} {last : SortField}

theorem seekOperand_test {f : SortField} {path : String} {test : Value}
    (h : seekOperand s after f.field = .ok (path, test)) :
    path = pathOf s.view f.field ∧ TestsSought s after f (entry path test) := by
  unfold seekOperand at h
  split at h
  · cases h
  · rename_i v hv
    split at h
    · cases h
    · obtain ⟨typeId, htype, h⟩ := bind_eq_ok.mp h
      obtain ⟨w, hw, heq⟩ := map_eq_ok.mp h
      cases heq
      exact ⟨rfl, v, typeId, test, hv, htype, rfl, .of_operand hw⟩

theorem seekTests_term {tests : List Document} (h : seekTests s after last earlier = .ok tests) :
    SeekTerm s after earlier last tests := by
  induction earlier generalizing tests with
  | nil =>
    obtain ⟨⟨path, w⟩, hoperand, h⟩ := bind_eq_ok.mp h
    cases h
    obtain ⟨rfl, -⟩ := seekOperand_test hoperand
    exact ⟨[], w, rfl, .nil⟩
  | cons f earlier ih =>
    obtain ⟨⟨path, w⟩, hoperand, h⟩ := bind_eq_ok.mp h
    obtain ⟨rest, hrest, h⟩ := bind_eq_ok.mp h
    cases h
    obtain ⟨equalities, later, rfl, hall⟩ := ih hrest
    exact ⟨_ :: equalities, later, rfl, .cons (seekOperand_test hoperand).2 hall⟩

theorem seekTerms_split {ts : List Document} (h : seekTerms s after earlier fs = .ok ts) :
    ∃ terms, ts = terms.flatMap (fun tests => (joined .and tests).toList) ∧
      List.Forall₂ (fun split tests => SeekTerm s after split.1 split.2 tests)
        (splits earlier fs) terms := by
  induction fs generalizing earlier ts with
  | nil =>
    cases h
    exact ⟨[], rfl, .nil⟩
  | cons f fs ih =>
    obtain ⟨tests, htests, h⟩ := bind_eq_ok.mp h
    obtain ⟨rest, hrest, h⟩ := bind_eq_ok.mp h
    cases h
    obtain ⟨terms, rfl, hall⟩ := ih hrest
    exact ⟨tests :: terms, rfl, .cons (seekTests_term htests) hall⟩

theorem seek_terms {sort : List SortField} {page : Page} {d : Document}
    (h : seek s sort page = .ok (some d)) :
    ∃ limit after terms, page = .seek limit after ∧
      joined .or (terms.flatMap fun tests => (joined .and tests).toList) = some d ∧
      List.Forall₂ (fun split tests => SeekTerm s after split.1 split.2 tests)
        (splits [] sort) terms := by
  unfold seek at h
  split at h
  · cases h
  · rename_i limit after
    split_ifs at h
    · cases h
    · obtain ⟨ts, hts, h⟩ := map_eq_ok.mp h
      obtain ⟨terms, rfl, hall⟩ := seekTerms_split hts
      exact ⟨limit, after, terms, rfl, h, hall⟩

end

/-- Conditions for equality, conditions on the value at a JSON path and the terms of a seek page
place stored operands at their paths. These tests are for equality, except where an operand has the
key of an operator. -/
theorem equality_placements (s : Scope) :
    (∀ c negate d, c.operator = .eq → condition s c negate = .ok d →
      ∃ typeId test, s.scalarType .filter c.property = .ok typeId ∧
        d = asNegated (c.negated ^^ negate) (entry (pathOf s.view c.property) test) ∧
        EqualityTest (pathOf s.view c.property) typeId c.value test) ∧
    (∀ c negate d, c.operator = .jsonValueEq → condition s c negate = .ok d →
      ∃ typeId jsonPath v test, s.scalarType .filter c.property = .ok typeId ∧
        JsonPath.operand? c.value = some (jsonPath, v) ∧
        d = asNegated (c.negated ^^ negate)
          (entry (childPath (pathOf s.view c.property) jsonPath) test) ∧
        EqualityTest (childPath (pathOf s.view c.property) jsonPath) typeId v test) ∧
    ∀ sort page d, seek s sort page = .ok (some d) →
      ∃ limit after terms, page = .seek limit after ∧
        joined .or (terms.flatMap fun tests => (joined .and tests).toList) = some d ∧
        List.Forall₂ (fun split tests => SeekTerm s after split.1 split.2 tests)
          (splits [] sort) terms :=
  ⟨fun _ _ _ => condition_eq, fun _ _ _ => condition_jsonValueEq, fun _ _ _ => seek_terms⟩

/-! ## A value that is an operator -/

def metaDocs : Scope :=
  let entity : Entity := ⟨"Doc", .entity, some "docs",
    [("id", .ofType (.scalar "long")), ("meta", .ofType (.scalar "json"))], []⟩
  ⟨⟨[("Doc", entity)], []⟩, entity, ⟨"core", [], none⟩⟩

/-- Equality with a value of the wire is run as the inequality with null. -/
theorem metaDocs_runs_operand :
    ∃ d test, condition metaDocs (.of "meta" .eq (.map [("$ne", .null)])) false = .ok d ∧
      condition metaDocs (.of "meta" .ne .null) false = .ok d ∧
      d = entry "meta" test ∧ isOperators test = true := by
  have h : condition metaDocs (.of "meta" .eq (.map [("$ne", .null)])) false = .ok _ := rfl
  obtain ⟨typeId, test, htype, hd, htest⟩ := (equality_placements metaDocs).1 _ _ _ rfl h
  cases htype
  exact ⟨_, test, h, rfl, hd, htest.operators.trans (by decide +kernel)⟩

end Polystore.Documents
