import Polystore.Proofs.Query.WireForm

/-! # Tests that are overlooked

Every object in a filter can hold several tests, and the reader takes the first key that it knows.
The tests at all places of elements are those that the result is made of and those that were
overlooked: beside the key that was read, under a key of children that has no array, and at the
head of a list under `not`. -/

namespace Polystore.Wire
set_option autoImplicit false

/-! ## Tests as they are written -/

/-- A test under the key of its operator, or the members of an object with an operator. -/
inductive Test where
  | keyed (op : Operator) (key : String) (body : Json)
  | members (ms : Members)

def Test.read : Test → Except WireError Condition
  | .keyed op key body => operatorCondition op key body
  | .members ms => memberCondition ms

def elementKeys : List String := ["and", "or", "not", "elements"]

def keyedTests (ms : Members) : List Test :=
  ms.filterMap fun m => (Operator.ofName? m.1).map (.keyed · m.1 m.2)

def memberTest (ms : Members) : List Test :=
  if hasKey "operator" ms || hasKey "op" ms then [.members ms] else []

mutual
/-- All tests at the places of elements, whether they are read or not. -/
def tests : Json → List Test
  | .arr items => testsBehind items
  | .obj ms => memberTest ms ++ keyedTests ms ++ testsUnder ms
  | _ => []
/-- The head of a list is no element. -/
def testsBehind : List Json → List Test
  | [] => []
  | _ :: js => testsAll js
def testsAll : List Json → List Test
  | [] => []
  | j :: js => tests j ++ testsAll js
def testsUnder : List (String × Json) → List Test
  | [] => []
  | (k, j) :: ms => (if k ∈ elementKeys then payloadTests j else []) ++ testsUnder ms
/-- What stands under a key of elements is an element, or an array of them. -/
def payloadTests : Json → List Test
  | .arr items => testsAll items
  | .obj ms => memberTest ms ++ keyedTests ms ++ testsUnder ms
  | _ => []
end

def headTests : Json → List Test
  | .arr (j :: _) => tests j
  | _ => []

theorem payloadTests_eq (j : Json) : payloadTests j = headTests j ++ tests j := by
  cases j with
  | arr items =>
    cases items with
    | nil => rfl
    | cons j js => rfl
  | obj ms => rfl
  | _ => rfl

/-! ## Tests that are read -/

/-- Tests, each with whether it is read. -/
abbrev Marked := List (Test × Bool)

def unread (ts : List Test) : Marked := ts.map (·, false)

def firstRead (read : Bool) : List Test → Marked
  | [] => []
  | t :: ts => (t, read) :: unread ts

def Form.isMemberCondition : Form → Bool
  | .memberCondition => true
  | _ => false

def Form.isOperator : Form → Bool
  | .operator .. => true
  | _ => false

/-- The key of the elements that an object is read by. -/
def Form.key? : Form → Option String
  | .children _ key => some key
  | .negation => some "not"
  | .elements => some "elements"
  | _ => none

mutual
/-- The tests at all places, as they are read: those of the form that an object has. -/
def marked : Json → Marked
  | .arr items => markedBehind items
  | .obj ms => firstRead (form ms).isMemberCondition (memberTest ms) ++
      firstRead (form ms).isOperator (keyedTests ms) ++ markedUnder (form ms).key? ms
  | _ => []
def markedBehind : List Json → Marked
  | [] => []
  | _ :: js => markedAll js
def markedAll : List Json → Marked
  | [] => []
  | j :: js => marked j ++ markedAll js
def markedUnder (key? : Option String) : List (String × Json) → Marked
  | [] => []
  | (k, j) :: ms =>
    if key? = some k then
      (if k = "not" then unread (headTests j) ++ marked j else markedChildren j) ++
        unread (testsUnder ms)
    else unread (if k ∈ elementKeys then payloadTests j else []) ++ markedUnder key? ms
/-- Children are read if they stand in an array. -/
def markedChildren : Json → Marked
  | .arr js => markedAll js
  | j => unread (payloadTests j)
end

def readIn (m : Marked) : List Test := (m.filter (·.2)).map (·.1)

def unreadIn (m : Marked) : List Test := (m.filter (!·.2)).map (·.1)

/-- The tests that are left out of what a filter is read as. -/
def overlooked (j : Json) : List Test := unreadIn (marked j)

/-! ## All tests are marked -/

section
variable {m m' : Marked} {ts : List Test} {ms : Members} {read : Bool}

theorem map_unread (ts : List Test) : (unread ts).map (·.1) = ts := by
  simp [unread, Function.comp_def]

theorem map_firstRead (read : Bool) (ts : List Test) : (firstRead read ts).map (·.1) = ts := by
  cases ts with
  | nil => rfl
  | cons t ts => rw [firstRead, List.map_cons, map_unread]

theorem key_of_children {clause : Clause} {key : String} (h : form ms = .children clause key) :
    key ∈ elementKeys ∧ key ≠ "not" := by
  unfold form at h
  repeat' split at h
  all_goals cases h <;> exact ⟨by decide, by decide⟩

theorem key?_mem {k : String} (h : (form ms).key? = some k) : k ∈ elementKeys := by
  cases hform : form ms with
  | children clause key =>
    rw [hform] at h
    exact Option.some.inj h ▸ (key_of_children hform).1
  | negation | elements =>
    rw [hform] at h
    exact Option.some.inj h ▸ (by decide)
  | _ =>
    rw [hform] at h
    cases h

mutual
theorem map_marked : (j : Json) → (marked j).map (·.1) = tests j
  | .arr items => by rw [marked, tests, map_markedBehind]
  | .obj ms => by
    rw [marked, tests, List.map_append, List.map_append, map_firstRead, map_firstRead,
      map_markedUnder fun k => key?_mem]
  | .null => rfl
  | .bool _ => rfl
  | .int _ => rfl
  | .float _ => rfl
  | .str _ => rfl
theorem map_markedBehind : (js : List Json) → (markedBehind js).map (·.1) = testsBehind js
  | [] => rfl
  | _ :: js => by rw [markedBehind, testsBehind, map_markedAll]
theorem map_markedAll : (js : List Json) → (markedAll js).map (·.1) = testsAll js
  | [] => rfl
  | j :: js => by rw [markedAll, testsAll, List.map_append, map_marked, map_markedAll]
theorem map_markedUnder {key? : Option String} (hkey : ∀ k, key? = some k → k ∈ elementKeys) :
    (ms : List (String × Json)) → (markedUnder key? ms).map (·.1) = testsUnder ms
  | [] => rfl
  | (k, j) :: ms => by
    rw [markedUnder, testsUnder]
    split
    · rename_i hk
      rw [if_pos (hkey k hk), List.map_append, map_unread]
      split
      · rw [List.map_append, map_unread, map_marked, payloadTests_eq]
      · rw [map_markedChildren]
    · rw [List.map_append, map_unread, map_markedUnder hkey ms]
theorem map_markedChildren : (j : Json) → (markedChildren j).map (·.1) = payloadTests j
  | .arr js => by rw [markedChildren, payloadTests, map_markedAll]
  | .obj ms => map_unread _
  | .null => rfl
  | .bool _ => rfl
  | .int _ => rfl
  | .float _ => rfl
  | .str _ => rfl
end

/-- Every test is either read or overlooked. -/
theorem tests_perm (j : Json) : (tests j).Perm (readIn (marked j) ++ overlooked j) := by
  rw [← map_marked, readIn, overlooked, unreadIn, ← List.map_append]
  exact (List.filter_append_perm (·.2) (marked j)).symm.map (·.1)

/-! ## What is read -/

/-- The conditions of what was read, if anything was. -/
def conditionsOf (r : Option Filter) : List Condition := (r.map Filter.conditions).getD []

/-- The tests that are marked as read are read as these conditions. -/
def ReadAs (m : Marked) (cs : List Condition) : Prop := (readIn m).map Test.read = cs.map .ok

theorem ReadAs.append {cs cs' : List Condition} (h : ReadAs m cs) (h' : ReadAs m' cs') :
    ReadAs (m ++ m') (cs ++ cs') := by
  unfold ReadAs readIn at *
  rw [List.filter_append, List.map_append, List.map_append, List.map_append, h, h']

theorem readAs_unread (ts : List Test) : ReadAs (unread ts) [] := by
  simp [ReadAs, readIn, unread]

theorem readAs_firstRead_false (ts : List Test) : ReadAs (firstRead false ts) [] := by
  cases ts with
  | nil => rfl
  | cons t ts => exact readAs_unread (t :: ts)

theorem readAs_firstRead_true {t : Test} {ts : List Test} {c : Condition} (h : t.read = .ok c) :
    ReadAs (firstRead true (t :: ts)) [c] := by
  have hrest : (readIn (unread ts)).map Test.read = [] := readAs_unread ts
  show t.read :: (readIn (unread ts)).map Test.read = _
  rw [hrest, h]
  rfl

theorem readAs_markedUnder_none (ms : Members) : ReadAs (markedUnder none ms) [] := by
  induction ms with
  | nil => rfl
  | cons e ms ih =>
    have hnone : ¬none = some e.1 := nofun
    rw [markedUnder, if_neg hnone]
    exact (readAs_unread _).append ih

theorem memberTest_of_form (h : form ms = .memberCondition) : memberTest ms = [.members ms] := by
  unfold form at h
  repeat' split at h
  all_goals first
    | cases h
      done
    | rename_i hkey
      exact if_pos hkey

theorem keyedTests_of_operatorMember? {op : Operator} {key : String} {body : Json}
    (h : operatorMember? ms = some (op, key, body)) :
    ∃ ts, keyedTests ms = .keyed op key body :: ts := by
  induction ms with
  | nil => cases h
  | cons e ms ih =>
    obtain ⟨k, j⟩ := e
    unfold keyedTests
    rw [operatorMember?] at h
    split at h
    · rename_i hk
      cases h
      rw [List.filterMap_cons, hk]
      exact ⟨_, rfl⟩
    · rename_i hk
      rw [List.filterMap_cons, hk]
      exact ih h

theorem keyedTests_of_form {op : Operator} {key : String} {body : Json}
    (h : form ms = .operator op key body) : ∃ ts, keyedTests ms = .keyed op key body :: ts := by
  unfold form at h
  repeat' split at h
  all_goals first
    | cases h
      rename_i hmember
      exact keyedTests_of_operatorMember? hmember
    | cases h

mutual
theorem readAs_marked : (j : Json) → ∀ {r : Option Filter}, element j = .ok r →
    ReadAs (marked j) (conditionsOf r)
  | .null, r, h => by
    rw [element] at h
    cases h
    rfl
  | .arr items, r, h => by
    rw [element] at h
    split at h
    · cases h
    · obtain ⟨fs, hfs, rfl⟩ := map_eq_ok.mp h
      rw [marked]
      exact readAs_markedBehind items hfs
  | .obj ms, r, h => by
    rw [element] at h
    rw [marked]
    have hfalse := readAs_firstRead_false
    -- the form of the object says which of its three parts is read
    split at h
    · rename_i clause key hform
      obtain ⟨fs, hfs, rfl⟩ := map_eq_ok.mp h
      rw [hform]
      exact ((hfalse _).append (hfalse _)).append
        (readAs_children (key_of_children hform).2 ms hfs)
    · rename_i hform
      obtain ⟨c, hc, rfl⟩ := map_eq_ok.mp h
      have hread : (Test.members ms).read = .ok c := hc
      rw [hform, memberTest_of_form hform]
      exact ((readAs_firstRead_true hread).append (hfalse _)).append (readAs_markedUnder_none ms)
    · rename_i hform
      obtain ⟨r, hr, rfl⟩ := map_eq_ok.mp h
      rw [hform]
      have hnot := ((hfalse (memberTest ms)).append (hfalse (keyedTests ms))).append
        (readAs_not ms hr)
      cases r <;> exact hnot
    · rename_i op key body hform
      obtain ⟨c, hc, rfl⟩ := map_eq_ok.mp h
      have hread : (Test.keyed op key body).read = .ok c := hc
      obtain ⟨ts, hts⟩ := keyedTests_of_form hform
      rw [hform, hts]
      exact ((hfalse _).append (readAs_firstRead_true hread)).append (readAs_markedUnder_none ms)
    · rename_i hform
      obtain ⟨fs, hfs, rfl⟩ := map_eq_ok.mp h
      rw [hform]
      exact ((hfalse _).append (hfalse _)).append (readAs_children (by decide) ms hfs)
    · cases h
  | .bool _, _, h => by cases h
  | .int _, _, h => by cases h
  | .float _, _, h => by cases h
  | .str _, _, h => by cases h
theorem readAs_markedBehind : (js : List Json) → ∀ {fs : List Filter}, elementsTail js = .ok fs →
    ReadAs (markedBehind js) (Filter.conditionsAll fs)
  | [], fs, h => by
    rw [elementsTail] at h
    cases h
    rfl
  | _ :: js, fs, h => by
    rw [elementsTail] at h
    rw [markedBehind]
    exact readAs_markedAll js h
theorem readAs_markedAll : (js : List Json) → ∀ {fs : List Filter}, elements js = .ok fs →
    ReadAs (markedAll js) (Filter.conditionsAll fs)
  | [], fs, h => by
    rw [elements] at h
    cases h
    rfl
  | j :: js, fs, h => by
    rw [elements] at h
    obtain ⟨r, hr, hnext⟩ := bind_eq_ok.mp h
    obtain ⟨gs, hgs, hfs⟩ := bind_eq_ok.mp hnext
    cases hfs
    have hall := (readAs_marked j hr).append (readAs_markedAll js hgs)
    rw [markedAll]
    cases r <;> exact hall
theorem readAs_children {key : String} (hkey : key ≠ "not") : (ms : List (String × Json)) →
    ∀ {fs : List Filter}, memberChildren key ms = .ok fs →
      ReadAs (markedUnder (some key) ms) (Filter.conditionsAll fs)
  | [], fs, h => by
    rw [memberChildren] at h
    cases h
    rfl
  | (k, j) :: ms, fs, h => by
    rw [memberChildren] at h
    rw [markedUnder]
    split at h
    · rename_i hk
      subst hk
      rw [if_pos rfl, if_neg hkey, ← List.append_nil (Filter.conditionsAll fs)]
      exact (readAs_markedChildren j h).append (readAs_unread _)
    · rename_i hk
      rw [if_neg fun heq => hk (Option.some.inj heq).symm]
      exact (readAs_unread _).append (readAs_children hkey ms h)
theorem readAs_not : (ms : List (String × Json)) → ∀ {r : Option Filter},
    memberElement "not" ms = .ok r → ReadAs (markedUnder (some "not") ms) (conditionsOf r)
  | [], r, h => by
    rw [memberElement] at h
    cases h
    rfl
  | (k, j) :: ms, r, h => by
    rw [memberElement] at h
    rw [markedUnder]
    split at h
    · rename_i hk
      rw [if_pos (congrArg some hk.symm), if_pos hk, ← List.append_nil (conditionsOf r)]
      exact ((readAs_unread _).append (readAs_marked j h)).append (readAs_unread _)
    · rename_i hk
      rw [if_neg fun heq => hk (Option.some.inj heq).symm]
      exact (readAs_unread _).append (readAs_not ms h)
theorem readAs_markedChildren : (j : Json) → ∀ {fs : List Filter}, children j = .ok fs →
    ReadAs (markedChildren j) (Filter.conditionsAll fs)
  | .arr js, fs, h => by
    rw [children] at h
    rw [markedChildren]
    exact readAs_markedAll js h
  | .obj _, fs, h => by
    cases h
    exact readAs_unread _
  | .null, fs, h => by
    cases h
    exact readAs_unread _
  | .bool _, fs, h => by
    cases h
    exact readAs_unread _
  | .int _, fs, h => by
    cases h
    exact readAs_unread _
  | .float _, fs, h => by
    cases h
    exact readAs_unread _
  | .str _, fs, h => by
    cases h
    exact readAs_unread _
end

/-! ## What a filter stands for -/

/-- An accepted filter has the conditions of the tests that are read, in their order, and as many
tests more as are overlooked. All of them are among its conditions if and only if every test that is
overlooked is the same as one that is read. -/
theorem accepted_tests {j : Json} {r : Option Filter} (h : Filter.ofWire j = .ok r) :
    (readIn (marked j)).map Test.read = (conditionsOf r).map .ok ∧
    (tests j).Perm (readIn (marked j) ++ overlooked j) ∧
    (tests j).length = (conditionsOf r).length + (overlooked j).length ∧
    ((∀ t ∈ tests j, ∃ c ∈ conditionsOf r, t.read = .ok c) ↔
      ∀ t ∈ overlooked j, ∃ t' ∈ readIn (marked j), t.read = t'.read) := by
  have hread : (readIn (marked j)).map Test.read = (conditionsOf r).map .ok := readAs_marked j h
  have hperm := tests_perm j
  have hlength : (readIn (marked j)).length = (conditionsOf r).length := by
    rw [← List.length_map Test.read, hread, List.length_map]
  have hfound : ∀ t : Test, (∃ c ∈ conditionsOf r, t.read = .ok c) ↔
      ∃ t' ∈ readIn (marked j), t.read = t'.read := by
    intro t
    have hmem : t.read ∈ (conditionsOf r).map .ok ↔ t.read ∈ (readIn (marked j)).map Test.read := by
      rw [hread]
    simpa only [List.mem_map, eq_comm] using hmem
  refine ⟨hread, hperm, by rw [hperm.length_eq, List.length_append, hlength], ?_⟩
  simp only [hfound, hperm.mem_iff, List.mem_append]
  constructor
  · exact fun hall t ht => hall t (.inr ht)
  · rintro hall t (ht | ht)
    · exact ⟨t, ht, rfl⟩
    · exact hall t ht

theorem unreadIn_append : unreadIn (m ++ m') = unreadIn m ++ unreadIn m' := by
  simp only [unreadIn, List.filter_append, List.map_append]

theorem overlooked_condition (op : Operator) (body : Json) :
    overlooked (.obj [(op.wireName, body)]) = [] := by
  have hname : Operator.ofName? op.wireName = some op := by cases op <;> decide
  have hmember : memberTest [(op.wireName, body)] = [] := by cases op <;> rfl
  have helement : op.wireName ∉ elementKeys := by cases op <;> decide
  rw [overlooked, marked, form_operator, hmember]
  simp [keyedTests, hname, Form.isOperator, Form.key?, firstRead, markedUnder, helement, unread,
    unreadIn]

theorem overlooked_clause (clause : Clause) (js : List Json) :
    overlooked (.obj [(clauseKey clause, .arr js)]) = unreadIn (markedAll js) := by
  have hname : Operator.ofName? (clauseKey clause) = none := by cases clause <;> decide
  have hmember : memberTest [(clauseKey clause, .arr js)] = [] := by cases clause <;> rfl
  have hnot : clauseKey clause ≠ "not" := by cases clause <;> decide
  rw [overlooked, marked, form_clause, hmember]
  simp [keyedTests, hname, Form.key?, firstRead, markedUnder, hnot, markedChildren, testsUnder,
    unread]

theorem overlooked_not (ms : Members) :
    overlooked (.obj [("not", .obj ms)]) = overlooked (.obj ms) := by
  have hname : Operator.ofName? "not" = none := by decide
  have hmember : memberTest [("not", .obj ms)] = [] := rfl
  rw [overlooked, marked, show form [("not", .obj ms)] = .negation from rfl, hmember]
  simp [keyedTests, hname, Form.key?, firstRead, markedUnder, headTests, testsUnder, unread,
    overlooked]

mutual
/-- In the wire form that filters are written in no test is overlooked. -/
theorem overlooked_toWire : (f : Filter) → overlooked f.toWire = []
  | .cond c => overlooked_condition c.operator _
  | .group clause fs => (overlooked_clause clause _).trans (unreadIn_ofFilters fs)
  | .not f => by
    have hobject : ∃ ms, ofFilter f = .obj ms := by cases f <;> exact ⟨_, rfl⟩
    obtain ⟨ms, hms⟩ := hobject
    have hwire : (Filter.not f).toWire = .obj [("not", .obj ms)] := by
      rw [Filter.toWire, ofFilter, hms]
    rw [hwire, overlooked_not, ← hms]
    exact overlooked_toWire f
theorem unreadIn_ofFilters : (fs : List Filter) → unreadIn (markedAll (ofFilters fs)) = []
  | [] => rfl
  | f :: fs => by
    rw [ofFilters, markedAll, unreadIn_append, unreadIn_ofFilters fs, List.append_nil]
    exact overlooked_toWire f
end

/-- A test that stands under `and` without an array: the filter that is read holds of everything. -/
theorem bareTest_overlooked :
    let body := Json.obj [("field", .str "owner"), ("value", .int 7)]
    let j := Json.obj [("and", .obj [("eq", body)])]
    Filter.ofWire j = .ok (some (.group .and [])) ∧ overlooked j = [.keyed .eq "eq" body] ∧
      ¬∀ t ∈ tests j, ∃ c ∈ conditionsOf (some (.group .and [])), t.read = .ok c := by
  intro body j
  have hread : Filter.ofWire j = .ok (some (.group .and [])) := rfl
  have hform : form [("and", .obj [("eq", body)])] = .children .and "and" := rfl
  have hand : Operator.ofName? "and" = none := by decide
  have heq : Operator.ofName? "eq" = some .eq := by decide
  have hmarked : marked j = [(.keyed .eq "eq" body, false)] := by
    simp [j, marked, hform, Form.key?, memberTest, hasKey, keyedTests, hand, heq, firstRead,
      markedUnder, markedChildren, payloadTests, testsUnder, elementKeys, unread]
  have hoverlooked : overlooked j = [.keyed .eq "eq" body] := by
    rw [overlooked, hmarked]
    rfl
  refine ⟨hread, hoverlooked, fun hall => ?_⟩
  have hnone : readIn (marked j) = [] := by
    rw [hmarked]
    rfl
  have hfound := (accepted_tests hread).2.2.2.mp hall
  rw [hoverlooked, hnone] at hfound
  obtain ⟨t, ht, -⟩ := hfound _ (List.mem_singleton_self _)
  cases ht

end

end Polystore.Wire
