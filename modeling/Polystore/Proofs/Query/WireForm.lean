import Polystore.Proofs.Outcome
import Polystore.Proofs.Query.Portable
import Polystore.Query.Wire

/-! # The wire form of queries

A well formed query is read back from its wire form as it was. Every query that is read is well
formed, whatever forms its text was in, so that it stays the same from then on. -/

namespace Polystore
set_option autoImplicit false

/-! ## Well formed queries -/

/-- A range has no value and every other test no bounds, and all values can be carried. -/
structure Condition.WellFormed (c : Condition) : Prop where
  operands : if c.operator = .range then c.value = .null else c.lower = .null ∧ c.upper = .null
  value : c.value.Portable
  lower : c.lower.Portable
  upper : c.upper.Portable

namespace Filter

mutual
def WellFormed : Filter → Prop
  | cond c => c.WellFormed
  | group _ fs => AllWellFormed fs
  | not f => WellFormed f
def AllWellFormed : List Filter → Prop
  | [] => True
  | f :: fs => WellFormed f ∧ AllWellFormed fs
end

end Filter

/-- Entries in order whose values can be carried. -/
def PortableMap (es : Entries Value) : Prop := Entries.Sorted es ∧ Value.PortableEntries es

/-- The limit is positive, and both numbers fit a signed word. -/
def Page.WellFormed : Page → Prop
  | offset o n => o.toNat < 2 ^ 63 ∧ 0 < n.toNat ∧ n.toNat < 2 ^ 63
  | seek n after => (0 < n.toNat ∧ n.toNat < 2 ^ 63) ∧ PortableMap after

structure Query.WellFormed (q : Query) : Prop where
  filter : ∀ f, q.filter = some f → f.WellFormed
  page : q.page.WellFormed
  params : PortableMap q.params

namespace Wire

/-! ## Filters -/

theorem form_operator (op : Operator) (j : Json) :
    form [(op.wireName, j)] = .operator op op.wireName j := by
  cases op <;> rfl

theorem form_clause (clause : Clause) (j : Json) :
    form [(clauseKey clause, j)] = .children clause (clauseKey clause) := by
  cases clause <;> rfl

/-- What is read from the body of a condition: its operands through JSON, and no others. -/
theorem canonicalCondition_conditionBody (c : Condition) :
    canonicalCondition c.operator (conditionBody c) = .ok
      (if c.operator = .range then
        { c with value := .null, lower := .ofJson c.lower.toJson, upper := .ofJson c.upper.toJson }
      else { c with value := .ofJson c.value.toJson, lower := .null, upper := .null }) := by
  obtain ⟨property, op, value, lower, upper, negated⟩ := c
  cases negated <;> cases op <;> rfl

theorem canonicalCondition_ok {c : Condition} (h : c.WellFormed) :
    canonicalCondition c.operator (conditionBody c) = .ok c := by
  have hoperands := h.operands
  rw [canonicalCondition_conditionBody, Value.ofJson_toJson _ h.value,
    Value.ofJson_toJson _ h.lower, Value.ofJson_toJson _ h.upper]
  obtain ⟨property, op, value, lower, upper, negated⟩ := c
  dsimp only at hoperands ⊢
  split
  · rename_i hrange
    rw [if_pos hrange] at hoperands
    rw [hoperands]
  · rename_i hrange
    rw [if_neg hrange] at hoperands
    rw [hoperands.1, hoperands.2]

theorem element_operator (op : Operator) (j : Json) :
    element (.obj [(op.wireName, j)]) =
      (operatorCondition op op.wireName j).map fun c => some (.cond c) := by
  rw [element, form_operator]

theorem element_clause (clause : Clause) (js : List Json) :
    element (.obj [(clauseKey clause, .arr js)]) =
      (elements js).map fun fs => some (.group clause fs) := by
  rw [element, form_clause]
  dsimp only
  rw [memberChildren, if_pos rfl, children]

theorem element_not (j : Json) :
    element (.obj [("not", j)]) = (element j).map fun r => r.map .not := by
  rw [element, show form [("not", j)] = .negation from rfl]
  dsimp only
  rw [memberElement, if_pos rfl]

mutual
theorem element_ofFilter : (f : Filter) → f.WellFormed → element (ofFilter f) = .ok (some f)
  | .cond c, h => by
    rw [ofFilter, element_operator, operatorCondition, canonicalCondition_ok h]
    rfl
  | .group clause fs, h => by
    rw [ofFilter, element_clause, elements_ofFilters fs h]
    rfl
  | .not f, h => by
    rw [ofFilter, element_not, element_ofFilter f h]
    rfl
theorem elements_ofFilters : (fs : List Filter) → Filter.AllWellFormed fs →
    elements (ofFilters fs) = .ok fs
  | [], _ => by rw [ofFilters, elements]
  | f :: fs, h => by
    rw [ofFilters, elements, element_ofFilter f h.1, elements_ofFilters fs h.2]
    rfl
end

/-! ## Pages -/

section
variable {n : UInt64}

theorem toInt_ofWord (h : n.toNat < 2 ^ 63) : (Int64.ofInt n.toNat).toInt = n.toNat := by
  rw [Int64.toInt_ofInt]
  apply Int.bmod_eq_of_le
  · simp only [Int64.size]
    omega
  · simp only [Int64.size]
    omega

theorem toUInt64_ofWord (n : UInt64) : (Int64.ofInt n.toNat).toUInt64 = n := by
  simp [Int64.ofInt]

theorem number_ofWord (d : Int64) (h : n.toNat < 2 ^ 63) :
    number d (some (ofWord n)) = .ok (Int64.ofInt n.toNat) := by
  have hfits : Number.fits64 n.toNat = true := by
    rw [← toInt_ofWord h]
    exact Number.fits64_toInt _
  exact if_pos hfits

theorem ofList_ofJsonMembers {es : Entries Value} (h : PortableMap es) :
    Entries.ofList (Value.ofJsonMembers (Value.toJsonEntries es)) = es := by
  rw [Value.ofJsonMembers_toJsonEntries es h.2, Entries.ofList_of_sorted h.1]

/-- A page is read by its limit, by whether it is a seek page, and by what belongs to that. -/
theorem page_eq {ms : Members} {limit : Int64} {type : String}
    (hlimit : number 50 (ms.lookup "limit") = .ok limit) (hpos : 0 < limit.toInt)
    (htype : text? (ms.lookup "type") = some type) :
    page ms = if Text.sameIgnoringCase type "seek" then
      .ok (.seek limit.toUInt64 (match ms.lookup "after" with
        | some (.obj a) => Entries.ofList (Value.ofJsonMembers a)
        | _ => []))
    else do
      let offset ← number 0 (ms.lookup "offset")
      if offset.toInt < 0 then
        throw (.invalidPage ("offset must be >= 0, got " ++ offset.toInt.repr))
      return .offset offset.toUInt64 limit.toUInt64 := by
  unfold page
  rw [hlimit]
  have hnot : ¬limit.toInt ≤ 0 := by omega
  show (if limit.toInt ≤ 0 then _ else _) = _
  rw [if_neg hnot, htype]
  rfl

theorem page_ofPage {p : Page} (h : p.WellFormed) :
    ∃ ms, ofPage p = .obj ms ∧ page ms = .ok p := by
  cases p with
  | offset o n =>
    obtain ⟨ho, hpos, hn⟩ := h
    refine ⟨[("type", .str "offset"), ("offset", ofWord o), ("limit", ofWord n)], rfl, ?_⟩
    have hnumber : number 50 (List.lookup "limit" [("type", .str "offset"), ("offset", ofWord o),
        ("limit", ofWord n)]) = .ok (Int64.ofInt n.toNat) := number_ofWord 50 hn
    have hlimit : 0 < (Int64.ofInt n.toNat).toInt := by
      rw [toInt_ofWord hn]
      omega
    have hoffset : ¬(Int64.ofInt o.toNat).toInt < 0 := by
      rw [toInt_ofWord ho]
      omega
    rw [page_eq hnumber hlimit rfl, if_neg (by decide)]
    show (number 0 (some (ofWord o)) >>= _) = _
    rw [number_ofWord 0 ho]
    show (if (Int64.ofInt o.toNat).toInt < 0 then _ else _) = _
    rw [if_neg hoffset]
    show Except.ok (Page.offset _ _) = _
    rw [toUInt64_ofWord, toUInt64_ofWord]
  | seek n after =>
    obtain ⟨⟨hpos, hn⟩, hafter⟩ := h
    have hlimit : 0 < (Int64.ofInt n.toNat).toInt := by
      rw [toInt_ofWord hn]
      omega
    have hnumber : ∀ ms, number 50 (List.lookup "limit" (("type", .str "seek") ::
        ("limit", ofWord n) :: ms)) = .ok (Int64.ofInt n.toNat) := fun _ => number_ofWord 50 hn
    cases after with
    | nil =>
      refine ⟨[("type", .str "seek"), ("limit", ofWord n)], rfl, ?_⟩
      rw [page_eq (hnumber _) hlimit rfl, if_pos (by decide), toUInt64_ofWord]
      rfl
    | cons e es =>
      refine ⟨[("type", .str "seek"), ("limit", ofWord n),
        ("after", .obj (Value.toJsonEntries (e :: es)))], rfl, ?_⟩
      rw [page_eq (hnumber _) hlimit rfl, if_pos (by decide), toUInt64_ofWord]
      show Except.ok (Page.seek n (Entries.ofList
        (Value.ofJsonMembers (Value.toJsonEntries (e :: es))))) = _
      rw [ofList_ofJsonMembers hafter]

end

/-! ## Lists -/

theorem sortFields_ofSort (sort : List SortField) : sortFields (sort.map ofSort) = .ok sort := by
  induction sort with
  | nil => rfl
  | cons s sort ih =>
    obtain ⟨field, dir⟩ := s
    have hdir : sortDir (some (.str dir.keyword)) = .ok dir := by cases dir <;> rfl
    rw [List.map_cons, ofSort, sortFields]
    show (sortDir (some (.str dir.keyword)) >>= fun dir => sortFields (sort.map ofSort) >>=
      fun rest => .ok (⟨field, dir⟩ :: rest)) = _
    rw [hdir, ih]
    rfl

theorem strings_map (ss : List String) : strings (ss.map .str) = ss := by
  induction ss with
  | nil => rfl
  | cons s ss ih =>
    rw [List.map_cons]
    show s :: strings (ss.map .str) = _
    rw [ih]

theorem lookup_ofList_self {α : Type} (key : String) (l : List α) (j : Json) :
    (ofList key l j).lookup key = if l.isEmpty then none else some j := by
  unfold ofList
  split
  · rfl
  · rw [List.lookup_cons, beq_self_eq_true]

theorem lookup_ofList_of_ne {α : Type} {key k : String} (hne : (k == key) = false) (l : List α)
    (j : Json) : (ofList key l j).lookup k = none := by
  unfold ofList
  split
  · rfl
  · rw [List.lookup_cons, hne, List.lookup_nil]

end Wire

namespace Query
open Wire

/-! ## Parts of a query -/

def readFilter : Option Json → Except WireError (Option Filter)
  | some j => element j
  | none => .ok none

def readPage : Option Json → Except WireError Page
  | some (.obj p) => Wire.page p
  | _ => .ok Page.first

def readSort : Option Json → Except WireError (List SortField)
  | some (.arr js) => sortFields js
  | _ => .ok []

def readTexts : Option Json → List String
  | some (.arr js) => strings js
  | _ => []

def readParams : Option Json → Entries Value
  | some (.obj ps) => Entries.ofList (Value.ofJsonMembers ps)
  | _ => []

/-- Each part of a query is read from the member under its key. -/
theorem ofMembers_eq (ms : Members) : ofMembers ms =
    readFilter (ms.lookup "filter") >>= fun filter =>
      readPage (ms.lookup "page") >>= fun page =>
        readSort (ms.lookup "sort") >>= fun sort =>
          .ok ⟨filter, page, sort, readTexts (ms.lookup "projection"),
            groupByFields (ms.lookup "groupBy"), readParams (ms.lookup "params")⟩ := by
  unfold ofMembers
  generalize ms.lookup "filter" = filter, ms.lookup "page" = page, ms.lookup "sort" = sort
  rcases filter with _ | filter <;> rcases page with _ | (_ | _ | _ | _ | _ | _ | _) <;>
    rcases sort with _ | (_ | _ | _ | _ | _ | _ | _) <;> rfl

/-! ## Whole queries -/

def members (q : Query) : Members :=
  (q.filter.map fun f => ("filter", f.toWire)).toList ++ [("page", ofPage q.page)] ++
    ofList "sort" q.sort (.arr (q.sort.map ofSort)) ++
    ofList "projection" q.projection (.arr (q.projection.map .str)) ++
    ofList "groupBy" q.groupBy (.obj [("fields", .arr (q.groupBy.map .str))]) ++
    ofList "params" q.params (.obj (Value.toJsonEntries q.params))

theorem toWire_eq (q : Query) : q.toWire = .obj q.members := rfl

theorem lookup_members (q : Query) :
    q.members.lookup "filter" = q.filter.map (·.toWire) ∧
    q.members.lookup "page" = some (ofPage q.page) ∧
    q.members.lookup "sort" = (if q.sort.isEmpty then none else some (.arr (q.sort.map ofSort))) ∧
    q.members.lookup "projection" =
      (if q.projection.isEmpty then none else some (.arr (q.projection.map .str))) ∧
    q.members.lookup "groupBy" = (if q.groupBy.isEmpty then none
      else some (.obj [("fields", .arr (q.groupBy.map .str))])) ∧
    q.members.lookup "params" =
      (if q.params.isEmpty then none else some (.obj (Value.toJsonEntries q.params))) := by
  have hfilter : ∀ k, (q.filter.map fun f => ("filter", f.toWire)).toList.lookup k =
      if k == "filter" then q.filter.map (·.toWire) else none := by
    intro k
    cases q.filter with
    | none => simp
    | some f => cases hk : k == "filter" <;> simp [List.lookup_cons, hk]
  unfold members
  simp only [List.lookup_append, hfilter, List.lookup_cons, List.lookup_nil]
  refine ⟨?_, ?_, ?_, ?_, ?_, ?_⟩
  · simp [lookup_ofList_of_ne]
  · simp [lookup_ofList_of_ne]
  · simp [lookup_ofList_of_ne, lookup_ofList_self]
  · simp [lookup_ofList_of_ne, lookup_ofList_self]
  · simp [lookup_ofList_of_ne, lookup_ofList_self]
  · simp [lookup_ofList_of_ne, lookup_ofList_self]

theorem ofMembers_members {q : Query} (h : q.WellFormed) : ofMembers q.members = .ok q := by
  obtain ⟨hfilter, hpage, hsort, hprojection, hgroupBy, hparams⟩ := lookup_members q
  obtain ⟨ms, hms, hread⟩ := page_ofPage h.page
  have hreadFilter : readFilter (q.members.lookup "filter") = .ok q.filter := by
    rw [hfilter]
    cases hq : q.filter with
    | none => rfl
    | some f => exact element_ofFilter f (h.filter f hq)
  have hreadPage : readPage (q.members.lookup "page") = .ok q.page := by
    rw [hpage, hms]
    exact hread
  have hreadSort : readSort (q.members.lookup "sort") = .ok q.sort := by
    rw [hsort]
    cases q.sort with
    | nil => rfl
    | cons s ss => exact sortFields_ofSort (s :: ss)
  have hreadProjection : readTexts (q.members.lookup "projection") = q.projection := by
    rw [hprojection]
    cases q.projection with
    | nil => rfl
    | cons s ss => exact strings_map (s :: ss)
  have hreadGroupBy : groupByFields (q.members.lookup "groupBy") = q.groupBy := by
    rw [hgroupBy]
    cases q.groupBy with
    | nil => rfl
    | cons s ss => exact strings_map (s :: ss)
  have hreadParams : readParams (q.members.lookup "params") = q.params := by
    have hread := ofList_ofJsonMembers h.params
    rw [hparams]
    cases hq : q.params with
    | nil => rfl
    | cons e es =>
      rw [hq] at hread
      exact hread
  rw [ofMembers_eq, hreadFilter, hreadPage, hreadSort, hreadProjection, hreadGroupBy, hreadParams]
  rfl

end Query

namespace Wire

/-! ## What is read -/

theorem proper_of_mem {ms : Members} (h : Json.ProperMembers ms) {m : String × Json} (hm : m ∈ ms) :
    m.2.Proper := Json.properMembers_iff.mp h m hm

/-- A member, if it is there, is proper. -/
def ProperOption (j : Option Json) : Prop := ∀ x, j = some x → x.Proper

theorem proper_lookup {ms : Members} (h : Json.ProperMembers ms) (k : String) :
    ProperOption (ms.lookup k) := by
  intro j hj
  exact proper_of_mem h (Entries.mem_of_lookup hj)

theorem proper_either? {ms : Members} (h : Json.ProperMembers ms) (a b : String) :
    ProperOption (either? a b ms) := by
  intro j hj
  rcases Option.or_eq_some_iff.mp hj with ha | ⟨-, hb⟩
  · exact proper_lookup h a j ha
  · exact proper_lookup h b j hb

theorem portable_valueOf {j : Option Json} (h : ProperOption j) : (valueOf j).Portable := by
  cases j with
  | none => trivial
  | some j => exact Value.portable_ofJson j (h j rfl)

theorem wellFormed_range {property : String} {value lower upper : Value} {negated : Bool}
    (hvalue : value = .null) (hlower : lower.Portable) (hupper : upper.Portable) :
    (⟨property, .range, value, lower, upper, negated⟩ : Condition).WellFormed :=
  ⟨hvalue, hvalue ▸ trivial, hlower, hupper⟩

theorem wellFormed_value {property : String} {op : Operator} (hop : op ≠ .range) {value : Value}
    {negated : Bool} (hvalue : value.Portable) :
    (⟨property, op, value, .null, .null, negated⟩ : Condition).WellFormed where
  operands := by
    rw [if_neg hop]
    exact ⟨rfl, rfl⟩
  value := hvalue
  lower := trivial
  upper := trivial

theorem canonicalCondition_wellFormed {op : Operator} {body : Members} {c : Condition}
    (hbody : Json.ProperMembers body) (h : canonicalCondition op body = .ok c) : c.WellFormed := by
  obtain ⟨property, -, hc⟩ := bind_eq_ok.mp h
  have hvalue := portable_valueOf (proper_lookup hbody "value")
  have hvalues := portable_valueOf (proper_either? hbody "values" "value")
  cases op with
  | range =>
    cases hc
    exact wellFormed_range rfl (portable_valueOf (proper_lookup hbody "lower"))
      (portable_valueOf (proper_lookup hbody "upper"))
  | inList =>
    cases hc
    exact wellFormed_value (show Operator.inList ≠ .range by decide) hvalues
  | notIn =>
    cases hc
    exact wellFormed_value (show Operator.notIn ≠ .range by decide) hvalues
  | _ =>
    cases hc
    exact wellFormed_value (fun hrange => by cases hrange) hvalue

theorem memberCondition_wellFormed {ms : Members} {c : Condition}
    (hms : Json.ProperMembers ms) (h : memberCondition ms = .ok c) : c.WellFormed := by
  obtain ⟨name, -, hname⟩ := bind_eq_ok.mp h
  obtain ⟨op, -, hop⟩ := bind_eq_ok.mp hname
  obtain ⟨property, -, hc⟩ := bind_eq_ok.mp hop
  dsimp only at hc
  split at hc
  · rename_i hrange
    subst hrange
    cases hc
    exact wellFormed_range rfl (portable_valueOf (proper_either? hms "lower" "from"))
      (portable_valueOf (proper_either? hms "upper" "to"))
  · rename_i hrange
    cases hc
    exact wellFormed_value hrange (portable_valueOf (proper_either? hms "value" "values"))

theorem operatorMember?_mem {ms : Members} {op : Operator} {key : String} {body : Json}
    (h : operatorMember? ms = some (op, key, body)) : (key, body) ∈ ms := by
  induction ms with
  | nil => cases h
  | cons m ms ih =>
    obtain ⟨k, j⟩ := m
    rw [operatorMember?] at h
    split at h
    · cases h
      exact List.mem_cons_self
    · exact List.mem_cons_of_mem _ (ih h)

theorem form_eq_operator {ms : Members} {op : Operator} {key : String} {body : Json}
    (h : form ms = .operator op key body) : (key, body) ∈ ms := by
  unfold form at h
  repeat' split at h
  all_goals first
    | cases h
      rename_i hmember
      exact operatorMember?_mem hmember
    | cases h

theorem operatorCondition_wellFormed {op : Operator} {key : String} {body : Json} {c : Condition}
    (hbody : body.Proper) (h : operatorCondition op key body = .ok c) : c.WellFormed := by
  cases body with
  | obj ms => exact canonicalCondition_wellFormed hbody.2 h
  | _ => cases h

mutual
theorem element_wellFormed : (j : Json) → j.Proper → ∀ {r : Option Filter}, element j = .ok r →
    ∀ f, r = some f → f.WellFormed
  | .null, _, r, h, f, hf => by
    rw [element] at h
    cases h
    cases hf
  | .arr items, hj, r, h, f, hf => by
    rw [element] at h
    split at h
    · cases h
    · obtain ⟨fs, hfs, rfl⟩ := map_eq_ok.mp h
      cases hf
      exact elementsTail_wellFormed items hj hfs
  | .obj ms, hj, r, h, f, hf => by
    rw [element] at h
    split at h
    · obtain ⟨fs, hfs, rfl⟩ := map_eq_ok.mp h
      cases hf
      exact memberChildren_wellFormed ms hj.2 hfs
    · obtain ⟨c, hc, rfl⟩ := map_eq_ok.mp h
      cases hf
      exact memberCondition_wellFormed hj.2 hc
    · obtain ⟨r, hr, rfl⟩ := map_eq_ok.mp h
      obtain ⟨g, hg, rfl⟩ := Option.map_eq_some_iff.mp hf
      exact memberElement_wellFormed ms hj.2 hr g hg
    · rename_i hform
      obtain ⟨c, hc, rfl⟩ := map_eq_ok.mp h
      cases hf
      exact operatorCondition_wellFormed (proper_of_mem hj.2 (form_eq_operator hform)) hc
    · obtain ⟨fs, hfs, rfl⟩ := map_eq_ok.mp h
      cases hf
      exact memberChildren_wellFormed ms hj.2 hfs
    · cases h
  | .bool _, _, _, h, _, _ => by cases h
  | .int _, _, _, h, _, _ => by cases h
  | .float _, _, _, h, _, _ => by cases h
  | .str _, _, _, h, _, _ => by cases h
theorem elementsTail_wellFormed : (js : List Json) → Json.ProperItems js → ∀ {fs : List Filter},
    elementsTail js = .ok fs → Filter.AllWellFormed fs
  | [], _, fs, h => by
    rw [elementsTail] at h
    cases h
    trivial
  | _ :: js, hjs, fs, h => by
    rw [elementsTail] at h
    exact elements_wellFormed js hjs.2 h
theorem elements_wellFormed : (js : List Json) → Json.ProperItems js → ∀ {fs : List Filter},
    elements js = .ok fs → Filter.AllWellFormed fs
  | [], _, fs, h => by
    rw [elements] at h
    cases h
    trivial
  | j :: js, hjs, fs, h => by
    rw [elements] at h
    obtain ⟨r, hr, hnext⟩ := bind_eq_ok.mp h
    obtain ⟨gs, hgs, hfs⟩ := bind_eq_ok.mp hnext
    cases hfs
    have hrest := elements_wellFormed js hjs.2 hgs
    cases r with
    | none => exact hrest
    | some f => exact ⟨element_wellFormed j hjs.1 hr f rfl, hrest⟩
theorem memberElement_wellFormed : (ms : List (String × Json)) → Json.ProperMembers ms →
    ∀ {key : String} {r : Option Filter}, memberElement key ms = .ok r →
      ∀ f, r = some f → f.WellFormed
  | [], _, key, r, h, f, hf => by
    rw [memberElement] at h
    cases h
    cases hf
  | (k, j) :: ms, hms, key, r, h, f, hf => by
    rw [memberElement] at h
    split at h
    · exact element_wellFormed j hms.1 h f hf
    · exact memberElement_wellFormed ms hms.2 h f hf
theorem memberChildren_wellFormed : (ms : List (String × Json)) → Json.ProperMembers ms →
    ∀ {key : String} {fs : List Filter}, memberChildren key ms = .ok fs → Filter.AllWellFormed fs
  | [], _, key, fs, h => by
    rw [memberChildren] at h
    cases h
    trivial
  | (k, j) :: ms, hms, key, fs, h => by
    rw [memberChildren] at h
    split at h
    · exact children_wellFormed j hms.1 h
    · exact memberChildren_wellFormed ms hms.2 h
theorem children_wellFormed : (j : Json) → j.Proper → ∀ {fs : List Filter},
    children j = .ok fs → Filter.AllWellFormed fs
  | .arr js, hj, fs, h => by
    rw [children] at h
    exact elements_wellFormed js hj h
  | .obj _, _, _, h => by
    cases h
    trivial
  | .null, _, _, h => by
    cases h
    trivial
  | .bool _, _, _, h => by
    cases h
    trivial
  | .int _, _, _, h => by
    cases h
    trivial
  | .float _, _, _, h => by
    cases h
    trivial
  | .str _, _, _, h => by
    cases h
    trivial
end

/-! ## Pages and whole queries that are read -/

theorem toNat_toUInt64 {l : Int64} (h : 0 ≤ l.toInt) :
    (l.toUInt64.toNat : Int) = l.toInt ∧ l.toUInt64.toNat < 2 ^ 63 := by
  have hlt : l.toInt < 2 ^ 63 := l.toInt_lt
  have hbits : l.toInt = if 2 * l.toUInt64.toNat < 2 ^ 64 then (l.toUInt64.toNat : Int)
      else l.toUInt64.toNat - (2 ^ 64 : Nat) := BitVec.toInt_eq_toNat_cond l.toBitVec
  have hword : l.toUInt64.toNat < 2 ^ 64 := l.toUInt64.toNat_lt
  split at hbits <;> omega

theorem portableMap_read {ps : Members} (h : Json.ProperMembers ps) :
    PortableMap (Entries.ofList (Value.ofJsonMembers ps)) := by
  refine ⟨Entries.sorted_ofList _, Value.portableEntries_iff.mpr ?_⟩
  intro e he
  have hportable := Value.portable_ofJsonMembers ps h
  exact Value.portableEntries_iff.mp hportable e (Entries.mem_ofList he)

theorem page_wellFormed {ms : Members} (hms : Json.ProperMembers ms) {p : Page}
    (h : page ms = .ok p) : p.WellFormed := by
  obtain ⟨limit, -, hlimit⟩ := bind_eq_ok.mp h
  dsimp only at hlimit
  split at hlimit
  · cases hlimit
  · rename_i hpos
    obtain ⟨hn, hn'⟩ := toNat_toUInt64 (l := limit) (by omega)
    split at hlimit
    · cases hlimit
      refine ⟨⟨by omega, hn'⟩, ?_⟩
      split
      · rename_i a ha
        exact portableMap_read (proper_lookup hms "after" _ ha).2
      · exact ⟨Entries.sorted_nil, trivial⟩
    · obtain ⟨offset, -, hoffset⟩ := bind_eq_ok.mp hlimit
      split at hoffset
      · cases hoffset
      · rename_i hnonneg
        cases hoffset
        obtain ⟨-, ho⟩ := toNat_toUInt64 (l := offset) (by omega)
        exact ⟨ho, by omega, hn'⟩

end Wire

namespace Query
open Wire

theorem wellFormed_ofMembers {ms : Members} (hms : Json.ProperMembers ms) {q : Query}
    (h : ofMembers ms = .ok q) : q.WellFormed := by
  rw [ofMembers_eq] at h
  obtain ⟨filter, hfilter, hnext⟩ := bind_eq_ok.mp h
  obtain ⟨page, hpage, hnext⟩ := bind_eq_ok.mp hnext
  obtain ⟨sort, -, hq⟩ := bind_eq_ok.mp hnext
  cases hq
  constructor
  · intro f hf
    unfold readFilter at hfilter
    split at hfilter
    · rename_i j hj
      exact element_wellFormed j (proper_lookup hms "filter" j hj) hfilter f hf
    · cases hfilter
      cases hf
  · unfold readPage at hpage
    split at hpage
    · rename_i p hp
      exact page_wellFormed (proper_lookup hms "page" _ hp).2 hpage
    · cases hpage
      exact ⟨by decide, by decide, by decide⟩
  · show PortableMap (readParams (ms.lookup "params"))
    unfold readParams
    split
    · rename_i ps hps
      exact portableMap_read (proper_lookup hms "params" _ hps).2
    · exact ⟨Entries.sorted_nil, trivial⟩

end Query

namespace Wire

/-! ## What is written -/

theorem properMembers_append {ms ns : Members} :
    Json.ProperMembers (ms ++ ns) ↔ Json.ProperMembers ms ∧ Json.ProperMembers ns := by
  simp only [Json.properMembers_iff, List.forall_mem_append]

theorem proper_conditionBody {c : Condition} (h : c.WellFormed) :
    (Json.obj (conditionBody c)).Proper := by
  have hvalue := Value.proper_toJson _ h.value
  have hlower := Value.proper_toJson _ h.lower
  have hupper := Value.proper_toJson _ h.upper
  obtain ⟨property, op, value, lower, upper, negated⟩ := c
  constructor
  · cases negated <;> cases op <;> simp [conditionBody]
  · unfold conditionBody
    refine properMembers_append.mpr ⟨properMembers_append.mpr ⟨⟨trivial, trivial⟩, ?_⟩, ?_⟩
    · cases negated with
      | false => trivial
      | true => exact ⟨trivial, trivial⟩
    · cases op with
      | range => exact ⟨hlower, hupper, trivial⟩
      | _ => exact ⟨hvalue, trivial⟩

theorem proper_single {k : String} {j : Json} (h : j.Proper) : (Json.obj [(k, j)]).Proper :=
  ⟨List.pairwise_singleton _ _, h, trivial⟩

mutual
theorem proper_ofFilter : (f : Filter) → f.WellFormed → (ofFilter f).Proper
  | .cond _, h => proper_single (proper_conditionBody h)
  | .group _ fs, h => proper_single (proper_ofFilters fs h)
  | .not f, h => proper_single (proper_ofFilter f h)
theorem proper_ofFilters : (fs : List Filter) → Filter.AllWellFormed fs →
    Json.ProperItems (ofFilters fs)
  | [], _ => trivial
  | f :: fs, h => ⟨proper_ofFilter f h.1, proper_ofFilters fs h.2⟩
end

theorem proper_ofWord (n : UInt64) : (ofWord n).Proper := by
  have hmin : Int64.minValue.toInt = -2 ^ 63 := rfl
  have hword : n.toNat < 2 ^ 64 := n.toNat_lt
  constructor
  · rw [hmin]
    omega
  · omega

theorem proper_portableMap {es : Entries Value} (h : PortableMap es) :
    (Json.obj (Value.toJsonEntries es)).Proper := by
  refine ⟨?_, Value.proper_toJsonEntries es h.2⟩
  rw [Value.keys_toJsonEntries]
  exact Entries.nodup_keys h.1

theorem proper_ofPage {p : Page} (h : p.WellFormed) : (ofPage p).Proper := by
  cases p with
  | offset o n => exact ⟨by simp, trivial, proper_ofWord o, proper_ofWord n, trivial⟩
  | seek n after =>
    cases after with
    | nil => exact ⟨by simp, trivial, proper_ofWord n, trivial⟩
    | cons e es => exact ⟨by simp, trivial, proper_ofWord n, proper_portableMap h.2, trivial⟩

theorem properMembers_ofList {α : Type} {key : String} {l : List α} {j : Json} (h : j.Proper) :
    Json.ProperMembers (ofList key l j) := by
  unfold ofList
  split
  · trivial
  · exact ⟨h, trivial⟩

theorem keys_ofList_sublist {α : Type} (key : String) (l : List α) (j : Json) :
    ((ofList key l j).map (·.1)).Sublist [key] := by
  unfold ofList
  split
  · exact List.nil_sublist _
  · exact List.Sublist.refl _

theorem properItems_map {α : Type} {f : α → Json} (h : ∀ x, (f x).Proper) (l : List α) :
    Json.ProperItems (l.map f) := by
  rw [Json.properItems_iff]
  intro j hj
  obtain ⟨x, -, rfl⟩ := List.mem_map.mp hj
  exact h x

end Wire

namespace Query
open Wire

theorem proper_toWire {q : Query} (h : q.WellFormed) : q.toWire.Proper := by
  have htexts : ∀ ss : List String, (Json.arr (ss.map .str)).Proper :=
    properItems_map fun _ => trivial
  have hfield : ∀ s : SortField, (ofSort s).Proper := fun _ => ⟨by simp, trivial, trivial, trivial⟩
  have hsort : (Json.arr (q.sort.map ofSort)).Proper := properItems_map hfield q.sort
  constructor
  · have hkeys : (q.members.map (·.1)).Sublist
        (["filter"] ++ ["page"] ++ ["sort"] ++ ["projection"] ++ ["groupBy"] ++ ["params"]) := by
      have hfilter : ((q.filter.map fun f => ("filter", f.toWire)).toList.map (·.1)).Sublist
          ["filter"] := by
        cases q.filter with
        | none => exact List.nil_sublist _
        | some f => exact List.Sublist.refl _
      unfold members
      simp only [List.map_append]
      exact ((((hfilter.append (List.Sublist.refl ["page"])).append
        (keys_ofList_sublist "sort" _ _)).append (keys_ofList_sublist "projection" _ _)).append
          (keys_ofList_sublist "groupBy" _ _)).append (keys_ofList_sublist "params" _ _)
    exact List.Nodup.sublist hkeys (by decide)
  · show Json.ProperMembers q.members
    unfold members
    simp only [properMembers_append]
    refine ⟨⟨⟨⟨⟨?_, proper_ofPage h.page, trivial⟩, properMembers_ofList hsort⟩,
      properMembers_ofList (htexts _)⟩, properMembers_ofList (proper_single (htexts _))⟩,
      properMembers_ofList (proper_portableMap h.params)⟩
    cases hq : q.filter with
    | none => trivial
    | some f => exact ⟨proper_ofFilter f (h.filter f hq), trivial⟩

/-! ## The wire form -/

/-- A well formed query has a wire form and is read back from it. Whatever JSON is read as a query,
the query is well formed, so that it is read back from its own wire form. -/
theorem ofWire_toWire :
    (∀ q : Query, q.WellFormed → q.toWire.Proper ∧ ofWire q.toWire = .ok q) ∧
    ∀ j : Json, j.Proper → ∀ q, ofWire j = .ok q → q.WellFormed ∧ ofWire q.toWire = .ok q := by
  have hback : ∀ q : Query, q.WellFormed → ofWire q.toWire = .ok q := by
    intro q hq
    rw [toWire_eq, ofWire, ofMembers_members hq]
  refine ⟨fun q hq => ⟨proper_toWire hq, hback q hq⟩, ?_⟩
  intro j hj q hread
  have hq : q.WellFormed := by
    cases j with
    | obj ms => exact wellFormed_ofMembers hj.2 hread
    | _ => cases hread
  exact ⟨hq, hback q hq⟩

/-- A query in the older forms: a list headed by its clause, a condition with an operator member and
bounds under `from` and `to`, and a page whose limit is a text. -/
def olderForm : Json :=
  .obj [("filter", .arr [.obj [("clause", .str "or")],
      .obj [("op", .str "range"), ("propertyPath", .str "total"), ("from", .int 1),
        ("to", .obj [("$param", .str "most")])],
      .obj [("not", .obj [("in", .obj [("field", .str "status"), ("value", .arr [.str "NEW"])])])]]),
    ("page", .obj [("limit", .str "20")]), ("params", .obj [("most", .int 9)])]

theorem olderForm_stays : olderForm.Proper ∧
    ∃ q, ofWire olderForm = .ok q ∧ q.WellFormed ∧ q.toWire.Proper ∧ ofWire q.toWire = .ok q := by
  have hproper : olderForm.Proper := by
    simp [olderForm, Json.Proper, Json.ProperItems, Json.ProperMembers]
  obtain ⟨q, hread⟩ : ∃ q, ofWire olderForm = .ok q := ⟨_, rfl⟩
  obtain ⟨hq, hback⟩ := ofWire_toWire.2 olderForm hproper q hread
  exact ⟨hproper, q, hread, hq, (ofWire_toWire.1 q hq).1, hback⟩

end Query
end Polystore
