import Polystore.Proofs.Query.WireForm
import Polystore.Proofs.Text.Trimming

/-! # Spellings of filters

A filter can be spelled in many ways: each of its conditions and groups in the canonical form or in
one of the older ones, with names in any letter case and members in any order. All of them are read
as the same filter. -/

namespace Polystore
set_option autoImplicit false

/-- A name in upper and lower case letters. -/
def InAnyCase (name s : String) : Prop := Text.lowerAscii s = Text.lowerAscii name

theorem Operator.ofName?_inAnyCase {op : Operator} {s : String} (h : InAnyCase op.name s) :
    Operator.ofName? s = some op := by
  have hfilled : op.name.toList.all (!Text.isBlank ·) = true := by cases op <;> decide
  have hself : Operator.ofName? op.name = some op := by cases op <;> decide
  have htrim : Text.trim op.name = op.name := Text.trim_of_lowerAscii rfl hfilled
  rw [Operator.ofName?, Text.trim_of_lowerAscii h hfilled, Text.upperAscii_of_lowerAscii h]
  rw [Operator.ofName?, htrim] at hself
  exact hself

theorem Clause.ofName?_inAnyCase {clause : Clause} {s : String} (h : InAnyCase clause.keyword s) :
    Clause.ofName? s = some clause := by
  have hfilled : clause.keyword.toList.all (!Text.isBlank ·) = true := by cases clause <;> decide
  have hself : Clause.ofName? clause.keyword = some clause := by cases clause <;> decide
  have htrim : Text.trim clause.keyword = clause.keyword := Text.trim_of_lowerAscii rfl hfilled
  rw [Clause.ofName?, Text.trim_of_lowerAscii h hfilled, Text.upperAscii_of_lowerAscii h]
  rw [Clause.ofName?, htrim] at hself
  exact hself

namespace Wire

/-! ## Spelled conditions -/

/-- The flag of a condition: left out if it is not set, a truth value or a text. -/
inductive FlagSpelled : Bool → Members → Prop
  | absent : FlagSpelled false []
  | bool (b : Bool) : FlagSpelled b [("not", .bool b)]
  | text {s : String} (h : InAnyCase "true" s) : FlagSpelled true [("not", .str s)]

/-- The operands of a condition, a value under the given key. -/
def operandMembers (key : String) (c : Condition) : Members :=
  if c.operator = .range then [("lower", c.lower.toJson), ("upper", c.upper.toJson)]
  else [(key, c.value.toJson)]

/-- The key of a value in the canonical form. -/
def valueKey : Operator → String
  | .inList | .notIn => "values"
  | _ => "value"

/-- The body of a condition in canonical form, its members in any order. -/
def BodySpells (c : Condition) (body : Members) : Prop :=
  ∃ flagged, FlagSpelled c.negated flagged ∧ body.Perm
    ([("field", .str c.property)] ++ flagged ++ operandMembers (valueKey c.operator) c)

/-- The key that an older one stands for. -/
def meaning : String → String
  | "op" => "operator"
  | "propertyPath" => "property"
  | "values" => "value"
  | "from" => "lower"
  | "to" => "upper"
  | k => k

def plain (ms : Members) : Members := ms.map fun m => (meaning m.1, m.2)

/-- A condition in the older form: its operator by name and each member under one of its keys. -/
def MembersSpell (c : Condition) (ms : Members) : Prop :=
  ∃ name flagged, InAnyCase c.operator.name name ∧ FlagSpelled c.negated flagged ∧ (plain ms).Perm
    ([("operator", .str name), ("property", .str c.property)] ++ flagged ++
      operandMembers "value" c)

/-! ## Spelled filters -/

mutual
/-- A filter as JSON, each part of it in one of the forms. The canonical form of a group has a key
that is left open here. -/
inductive Spells (key : Clause → String → Prop) : Filter → Json → Prop
  | condition {c : Condition} {k : String} {body : Members} (hk : InAnyCase c.operator.name k)
      (hbody : BodySpells c body) : Spells key (.cond c) (.obj [(k, .obj body)])
  | olderCondition {c : Condition} {ms : Members} (hms : MembersSpell c ms) :
      Spells key (.cond c) (.obj ms)
  | group {clause : Clause} {fs : List Filter} {k : String} {js : List Json} (hk : key clause k)
      (h : SpellsAll key fs js) : Spells key (.group clause fs) (.obj [(k, .arr js)])
  | olderGroup {clause : Clause} {fs : List Filter} {name : String} {js : List Json} {ms : Members}
      (hname : InAnyCase clause.keyword name)
      (hms : ms.Perm [("clause", .str name), ("elements", .arr js)]) (h : SpellsAll key fs js) :
      Spells key (.group clause fs) (.obj ms)
  | headedList {clause : Clause} {fs : List Filter} {name : String} {js : List Json}
      (hname : InAnyCase clause.keyword name) (h : SpellsAll key fs js) :
      Spells key (.group clause fs) (.arr (.obj [("clause", .str name)] :: js))
  | not {f : Filter} {j : Json} (h : Spells key f j) : Spells key (.not f) (.obj [("not", j)])
inductive SpellsAll (key : Clause → String → Prop) : List Filter → List Json → Prop
  | nil : SpellsAll key [] []
  | cons {f : Filter} {fs : List Filter} {j : Json} {js : List Json} (h : Spells key f j)
      (hs : SpellsAll key fs js) : SpellsAll key (f :: fs) (j :: js)
end

/-! ## Reading conditions -/

section
variable {c : Condition} {ms body flagged : Members} {negated : Bool} {key k a b : String}

theorem FlagSpelled.flag_lookup (h : FlagSpelled negated flagged) :
    flag (flagged.lookup "not") = negated := by
  cases h with
  | absent => rfl
  | bool b => rfl
  | text h => exact beq_iff_eq.mpr h

theorem FlagSpelled.lookup_eq_none (h : FlagSpelled negated flagged) (hk : (k == "not") = false) :
    flagged.lookup k = none := by
  cases h with
  | absent => rfl
  | bool b => rw [List.lookup_cons, hk, List.lookup_nil]
  | text h => rw [List.lookup_cons, hk, List.lookup_nil]

theorem lookup_not_operandMembers (hkey : key ∈ ["value", "values"]) (c : Condition) :
    (operandMembers key c).lookup "not" = none := by
  unfold operandMembers
  split
  · rfl
  · rw [List.lookup_cons, List.lookup_nil]
    fin_cases hkey <;> rfl

theorem keys_spelled (firsts : Members) (c : Condition) (hflagged : FlagSpelled negated flagged)
    (hkey : key ∈ ["value", "values"]) :
    ((firsts ++ flagged ++ operandMembers key c).map (·.1)).Sublist
      (firsts.map (·.1) ++ ["not"] ++ ["lower", "upper", "value", "values"]) := by
  have hnot : (flagged.map (·.1)).Sublist ["not"] := by
    cases hflagged with
    | absent => exact List.nil_sublist _
    | bool b => exact List.Sublist.refl _
    | text h => exact List.Sublist.refl _
  have hoperands : ((operandMembers key c).map (·.1)).Sublist
      ["lower", "upper", "value", "values"] := by
    unfold operandMembers
    split
    · exact .cons_cons _ (.cons_cons _ (List.nil_sublist _))
    · exact List.singleton_sublist.mpr (List.mem_cons_of_mem _ (List.mem_cons_of_mem _ hkey))
  rw [List.map_append, List.map_append]
  exact ((List.Sublist.refl _).append hnot).append hoperands

theorem lookup_spelled (firsts : Members) (hflagged : FlagSpelled negated flagged)
    (hk : (k == "not") = false) : (firsts ++ flagged ++ operandMembers key c).lookup k =
      (firsts.lookup k).or ((operandMembers key c).lookup k) := by
  rw [List.lookup_append, List.lookup_append, hflagged.lookup_eq_none hk, Option.or_none]

theorem flag_spelled {firsts : Members} (hflagged : FlagSpelled negated flagged)
    (hkey : key ∈ ["value", "values"]) (hfirsts : firsts.lookup "not" = none) :
    flag ((firsts ++ flagged ++ operandMembers key c).lookup "not") = negated := by
  rw [List.lookup_append, List.lookup_append, hfirsts, Option.none_or,
    lookup_not_operandMembers hkey, Option.or_none, hflagged.flag_lookup]

/-- What is read from the body of a condition depends on its members alone. -/
theorem canonicalCondition_congr {op : Operator} {body' : Members}
    (hflag : flag (body.lookup "not") = flag (body'.lookup "not"))
    (h : ∀ k, (k == "not") = false → body.lookup k = body'.lookup k) :
    canonicalCondition op body = canonicalCondition op body' := by
  unfold canonicalCondition either?
  rw [h "field" rfl, hflag, h "lower" rfl, h "upper" rfl, h "values" rfl, h "value" rfl]

theorem bodySpells_conditionBody (c : Condition) : BodySpells c (conditionBody c) := by
  refine ⟨if c.negated then [("not", .bool true)] else [], ?_, List.Perm.of_eq ?_⟩
  · cases c.negated with
    | false => exact .absent
    | true => exact .bool true
  · obtain ⟨property, op, value, lower, upper, negated⟩ := c
    cases op <;> rfl

theorem BodySpells.lookup (h : BodySpells c body) :
    flag (body.lookup "not") = c.negated ∧ ∀ k, (k == "not") = false → body.lookup k =
      (List.lookup k [("field", .str c.property)]).or
        ((operandMembers (valueKey c.operator) c).lookup k) := by
  obtain ⟨flagged, hflagged, hperm⟩ := h
  have hkey : valueKey c.operator ∈ ["value", "values"] := by cases c.operator <;> decide
  have hlookup := Entries.lookup_of_perm ((keys_spelled _ c hflagged hkey).nodup (by simp)) hperm
  constructor
  · rw [hlookup, flag_spelled hflagged hkey rfl]
  · intro k hk
    rw [hlookup, lookup_spelled _ hflagged hk]

theorem canonicalCondition_of_spells (hc : c.WellFormed) (h : BodySpells c body) :
    canonicalCondition c.operator body = .ok c := by
  obtain ⟨hflag, hlookup⟩ := h.lookup
  obtain ⟨hflag', hlookup'⟩ := (bodySpells_conditionBody c).lookup
  rw [← canonicalCondition_ok hc]
  refine canonicalCondition_congr (hflag.trans hflag'.symm) fun k hk => ?_
  rw [hlookup k hk, hlookup' k hk]

/-- The keys of an older condition, each with its other key. -/
def olderKeys : List (String × String) :=
  [("operator", "op"), ("property", "propertyPath"), ("value", "values"), ("lower", "from"),
    ("upper", "to"), ("not", "not")]

theorem meaning_iff (hab : (a, b) ∈ olderKeys) (k : String) : meaning k = a ↔ k = a ∨ k = b := by
  simp only [olderKeys, List.mem_cons, Prod.mk.injEq, List.not_mem_nil, or_false] at hab
  unfold meaning
  obtain ⟨rfl, rfl⟩ | ⟨rfl, rfl⟩ | ⟨rfl, rfl⟩ | ⟨rfl, rfl⟩ | ⟨rfl, rfl⟩ | ⟨rfl, rfl⟩ := hab <;>
    split <;> simp_all

/-- A member under either of its keys is the one under the key that both stand for. -/
theorem either?_eq_lookup_plain (hab : (a, b) ∈ olderKeys)
    (hnodup : ((plain ms).map (·.1)).Nodup) : either? a b ms = (plain ms).lookup a := by
  induction ms with
  | nil => rfl
  | cons m ms ih =>
    obtain ⟨k, j⟩ := m
    obtain ⟨hk, hms⟩ := List.nodup_cons.mp hnodup
    have hnone : ∀ {other}, meaning other = meaning k → ms.lookup other = none := by
      intro other hother
      refine Entries.lookup_eq_none_iff.mpr fun hmem => hk ?_
      obtain ⟨m, hm, rfl⟩ := List.mem_map.mp hmem
      exact List.mem_map.mpr ⟨_, List.mem_map_of_mem hm, hother⟩
    have hrest : either? a b ms = (plain ms).lookup a := ih hms
    change either? a b ((k, j) :: ms) = List.lookup a ((meaning k, j) :: plain ms)
    -- once one of the two keys is found, neither is there again
    by_cases hmeaning : meaning k = a
    · have ha : meaning a = meaning k := hmeaning.symm ▸ (meaning_iff hab a).mpr (.inl rfl)
      rw [hmeaning, List.lookup_cons_self]
      rcases (meaning_iff hab k).mp hmeaning with rfl | rfl
      · rw [either?, List.lookup_cons_self, Option.some_or]
      · by_cases hsame : a = k
        · rw [either?, hsame, List.lookup_cons_self, Option.some_or]
        · rw [either?, List.lookup_cons, beq_false_of_ne hsame, hnone ha, List.lookup_cons_self,
            Option.none_or]
    · have hka : (a == k) = false := by
        rw [beq_eq_false_iff_ne]
        rintro rfl
        exact hmeaning ((meaning_iff hab a).mpr (.inl rfl))
      have hkb : (b == k) = false := by
        rw [beq_eq_false_iff_ne]
        rintro rfl
        exact hmeaning ((meaning_iff hab b).mpr (.inr rfl))
      rw [List.lookup_cons, beq_false_of_ne (Ne.symm hmeaning), ← hrest, either?, either?,
        List.lookup_cons, hka, List.lookup_cons, hkb]

/-- What an older condition has under the keys that are looked up. -/
theorem MembersSpell.lookup (h : MembersSpell c ms) :
    ∃ name, InAnyCase c.operator.name name ∧ flag (ms.lookup "not") = c.negated ∧
      ∀ a b, (a, b) ∈ olderKeys → (a == "not") = false → either? a b ms =
        (List.lookup a [("operator", Json.str name), ("property", Json.str c.property)]).or
          ((operandMembers "value" c).lookup a) := by
  obtain ⟨name, flagged, hname, hflagged, hperm⟩ := h
  have hkey : "value" ∈ ["value", "values"] := by decide
  have hnodup := (keys_spelled [("operator", .str name), ("property", .str c.property)] c hflagged
    hkey).nodup (by simp)
  have hplain := ((hperm.map (·.1)).nodup_iff).mpr hnodup
  have hlookup := Entries.lookup_of_perm hnodup hperm
  refine ⟨name, hname, ?_, fun a b hab ha => ?_⟩
  · have hnot : ms.lookup "not" = (plain ms).lookup "not" := by
      rw [← either?_eq_lookup_plain (b := "not") (by decide) hplain, either?, Option.or_self]
    rw [hnot, hlookup, flag_spelled hflagged hkey rfl]
  · rw [either?_eq_lookup_plain hab hplain, hlookup, lookup_spelled _ hflagged ha]

/-- An older condition that has an operator and a property is read. -/
theorem memberCondition_ok {name property : String} {op : Operator}
    (hname : either? "operator" "op" ms = some (.str name)) (hop : operatorNamed name = .ok op)
    (hproperty : either? "property" "propertyPath" ms = some (.str property)) :
    memberCondition ms = .ok (if op = .range then
      ⟨property, op, .null, valueOf (either? "lower" "from" ms), valueOf (either? "upper" "to" ms),
        flag (ms.lookup "not")⟩
    else ⟨property, op, valueOf (either? "value" "values" ms), .null, .null,
      flag (ms.lookup "not")⟩) := by
  unfold memberCondition
  rw [hname, hproperty]
  simp only [text?, required, hop, bind, Except.bind, Condition.of]
  split <;> rfl

theorem memberCondition_of_spells (hc : c.WellFormed) (h : MembersSpell c ms) :
    memberCondition ms = .ok c := by
  obtain ⟨name, hname, hflag, hlookup⟩ := h.lookup
  have hoperator : operatorNamed name = .ok c.operator := by
    rw [operatorNamed, Operator.ofName?_inAnyCase hname]
  have hoperands := hc.operands
  rw [memberCondition_ok (hlookup "operator" "op" (by decide) rfl) hoperator
    (hlookup "property" "propertyPath" (by decide) rfl), hflag,
    hlookup "lower" "from" (by decide) rfl, hlookup "upper" "to" (by decide) rfl,
    hlookup "value" "values" (by decide) rfl]
  have hvalue := Value.ofJson_toJson _ hc.value
  have hlower := Value.ofJson_toJson _ hc.lower
  have hupper := Value.ofJson_toJson _ hc.upper
  unfold operandMembers
  obtain ⟨property, op, value, lower, upper, negated⟩ := c
  dsimp only at hvalue hlower hupper hoperands ⊢
  split
  · rename_i hrange
    rw [if_pos hrange] at hoperands
    have hbounds : valueOf (some lower.toJson) = lower ∧ valueOf (some upper.toJson) = upper :=
      ⟨hlower, hupper⟩
    simp only [List.lookup_cons, List.lookup_nil, String.reduceBEq, Option.none_or, hbounds,
      hoperands]
  · rename_i hrange
    rw [if_neg hrange] at hoperands
    have hoperand : valueOf (some value.toJson) = value := hvalue
    simp only [List.lookup_cons, List.lookup_nil, String.reduceBEq, Option.none_or, hoperand,
      hoperands]

end

/-! ## Forms -/

section
variable {ms : Members} {k : String} {op : Operator} {j : Json}

theorem hasKey_eq_false (h : k ∉ ms.map (·.1)) : hasKey k ms = false := by
  rw [hasKey, Entries.lookup_eq_none_iff.mpr h, Option.isSome_none]

/-- The key of an operator alone makes a condition. -/
theorem form_operatorKey (h : Operator.ofName? k = some op) : form [(k, j)] = .operator op k j := by
  have hne : ∀ other, Operator.ofName? other = none → hasKey other [(k, j)] = false := by
    intro other hother
    refine hasKey_eq_false fun hmem => ?_
    rw [List.mem_singleton.mp hmem, h] at hother
    cases hother
  unfold form
  rw [hne "and" (by decide), hne "or" (by decide), hne "operator" (by decide), hne "op" (by decide),
    hne "not" (by decide)]
  simp [operatorMember?, h]

theorem MembersSpell.meaning_mem {c : Condition} (h : MembersSpell c ms) (hk : k ∈ ms.map (·.1)) :
    meaning k ∈ ["operator", "property", "not", "lower", "upper", "value", "values"] := by
  obtain ⟨name, flagged, -, hflagged, hperm⟩ := h
  obtain ⟨m, hm, rfl⟩ := List.mem_map.mp hk
  have hplain : meaning m.1 ∈ (plain ms).map (·.1) :=
    List.mem_map.mpr ⟨_, List.mem_map_of_mem hm, rfl⟩
  exact (keys_spelled _ c hflagged (by decide)).mem ((hperm.map (·.1)).mem_iff.mp hplain)

theorem form_memberCondition {c : Condition} (h : MembersSpell c ms) :
    form ms = .memberCondition := by
  have habsent : ∀ k, meaning k ∉
      ["operator", "property", "not", "lower", "upper", "value", "values"] →
      hasKey k ms = false :=
    fun k hk => hasKey_eq_false fun hmem => hk (h.meaning_mem hmem)
  have hoperator : (hasKey "operator" ms || hasKey "op" ms) = true := by
    obtain ⟨name, -, -, hlookup⟩ := h.lookup
    rw [hasKey, hasKey, ← Option.isSome_or, ← either?, hlookup _ _ (by decide) rfl]
    rfl
  unfold form
  rw [habsent "and" (by decide), habsent "or" (by decide), hoperator]
  rfl

theorem operatorMember?_eq_none (h : ∀ k ∈ ms.map (·.1), Operator.ofName? k = none) :
    operatorMember? ms = none := by
  induction ms with
  | nil => rfl
  | cons m ms ih =>
    obtain ⟨hm, hms⟩ := List.forall_mem_cons.mp h
    rw [operatorMember?, hm]
    exact ih hms

/-- The elements of a group are those of the member under its key. -/
theorem memberChildren_eq (key : String) (ms : Members) :
    memberChildren key ms = ((ms.lookup key).map children).getD (.ok []) := by
  induction ms with
  | nil => rw [memberChildren]; rfl
  | cons m ms ih =>
    obtain ⟨k, j⟩ := m
    rw [memberChildren]
    split
    · rename_i hk
      rw [hk, List.lookup_cons_self]
      rfl
    · rename_i hk
      rw [ih, List.lookup_cons, beq_false_of_ne (Ne.symm hk)]

theorem element_olderGroup {clause : Clause} {name : String} {js : List Json}
    (hname : InAnyCase clause.keyword name)
    (hms : ms.Perm [("clause", .str name), ("elements", .arr js)]) :
    element (.obj ms) = (elements js).map fun fs => some (.group clause fs) := by
  have hlookup := Entries.lookup_of_perm (by simp) hms
  have hkeys : ∀ k ∈ ms.map (·.1), k ∈ ["clause", "elements"] :=
    fun k hk => (hms.map (·.1)).mem_iff.mp hk
  have habsent : ∀ k, k ∉ ["clause", "elements"] → hasKey k ms = false :=
    fun k hk => hasKey_eq_false fun hmem => hk (hkeys k hmem)
  have hoperator : operatorMember? ms = none := by
    refine operatorMember?_eq_none fun k hk => ?_
    have := hkeys k hk
    fin_cases this <;> decide
  have hform : form ms = .elements := by
    unfold form
    rw [habsent "and" (by decide), habsent "or" (by decide), habsent "operator" (by decide),
      habsent "op" (by decide), habsent "not" (by decide), hoperator, hasKey, hlookup]
    rfl
  have hclause : membersClause ms = clause := by
    rw [membersClause, hlookup]
    show ((some name).bind Clause.ofName?).getD .and = clause
    rw [Option.bind_some, Clause.ofName?_inAnyCase hname, Option.getD_some]
  rw [element, hform]
  dsimp only
  rw [memberChildren_eq, hlookup, hclause]
  rfl

theorem element_headedList {clause : Clause} {name : String} (js : List Json)
    (hname : InAnyCase clause.keyword name) :
    element (.arr (.obj [("clause", .str name)] :: js)) =
      (elements js).map fun fs => some (.group clause fs) := by
  have hclause : headClause (some (.obj [("clause", .str name)])) = .ok clause := by
    unfold headClause
    simp only [Option.bind_some, Json.get?, List.lookup_cons_self, text?, required, bind,
      Except.bind, clauseNamed, Clause.ofName?_inAnyCase hname]
  rw [element, List.head?_cons, hclause]
  dsimp only
  rw [elementsTail]

end

/-! ## Reading filters -/

mutual
theorem element_of_spells : {f : Filter} → {j : Json} →
    Spells (fun clause k => k = clauseKey clause) f j → f.WellFormed → element j = .ok (some f)
  | _, _, .condition hk hbody, hf => by
    rw [element, form_operatorKey (Operator.ofName?_inAnyCase hk)]
    dsimp only
    rw [operatorCondition, canonicalCondition_of_spells hf hbody]
    rfl
  | _, _, .olderCondition hms, hf => by
    rw [element, form_memberCondition hms]
    dsimp only
    rw [memberCondition_of_spells hf hms]
    rfl
  | _, _, .group hk h, hf => by
    rw [hk, element_clause, elements_of_spells h hf]
    rfl
  | _, _, .olderGroup hname hms h, hf => by
    rw [element_olderGroup hname hms, elements_of_spells h hf]
    rfl
  | _, _, .headedList hname h, hf => by
    rw [element_headedList _ hname, elements_of_spells h hf]
    rfl
  | _, _, .not h, hf => by
    rw [element_not, element_of_spells h hf]
    rfl
theorem elements_of_spells : {fs : List Filter} → {js : List Json} →
    SpellsAll (fun clause k => k = clauseKey clause) fs js → Filter.AllWellFormed fs →
      elements js = .ok fs
  | _, _, .nil, _ => by rw [elements]
  | _, _, .cons h hs, hfs => by
    rw [elements, element_of_spells h hfs.1, elements_of_spells hs hfs.2]
    rfl
end

/-- However a well formed filter is spelled, it is read as it is from its wire form. The keys of
groups in canonical form are the only words that have to be in lower case. -/
theorem spellings_read {f : Filter} {j : Json} (hf : f.WellFormed)
    (h : Spells (fun clause k => k = clauseKey clause) f j) :
    Filter.ofWire j = .ok (some f) ∧ Filter.ofWire f.toWire = .ok (some f) :=
  ⟨element_of_spells h hf, element_ofFilter f hf⟩

/-- A list headed by its clause with a range in the older form, a group in the older form around a
condition in the canonical one, and an empty group in canonical form. -/
theorem mixedSpelling_read :
    let range : Condition := ⟨"total", .range, .null, .long 1, .param "most", true⟩
    let status : Condition := ⟨"status", .inList, .list [.str "NEW"], .null, .null, false⟩
    let f := Filter.group .or [.cond range, .group .and [.cond status], .not (.group .or [])]
    let j := Json.arr [.obj [("clause", .str "Or")],
      .obj [("op", .str "Range"), ("propertyPath", .str "total"), ("not", .str "TRUE"),
        ("from", .int 1), ("upper", .obj [("param", .str "most")])],
      .obj [("elements", .arr [.obj [("IN", .obj [("values", .arr [.str "NEW"]),
        ("field", .str "status")])]]), ("clause", .str "and")],
      .obj [("not", .obj [("or", .arr [])])]]
    f.WellFormed ∧ Filter.ofWire j = .ok (some f) ∧ Filter.ofWire f.toWire = .ok (some f) := by
  intro range status f j
  have hrange : range.WellFormed := ⟨rfl, trivial, trivial, trivial⟩
  have hstatus : status.WellFormed := ⟨⟨rfl, rfl⟩, ⟨trivial, trivial⟩, trivial, trivial⟩
  have hf : f.WellFormed := ⟨hrange, ⟨hstatus, trivial⟩, trivial, trivial⟩
  have hbody : BodySpells status [("values", .arr [.str "NEW"]), ("field", .str "status")] :=
    ⟨[], .absent, .swap _ _ _⟩
  have holder : MembersSpell range [("op", .str "Range"), ("propertyPath", .str "total"),
      ("not", .str "TRUE"), ("from", .int 1), ("upper", .obj [("param", .str "most")])] :=
    ⟨"Range", [("not", .str "TRUE")], by unfold InAnyCase; decide,
      .text (by unfold InAnyCase; decide), .refl _⟩
  have hspells : Spells (fun clause k => k = clauseKey clause) f j := by
    refine .headedList (by unfold InAnyCase; decide) (.cons (.olderCondition holder)
      (.cons (.olderGroup (by unfold InAnyCase; decide) (.swap _ _ _)
        (.cons (.condition (by unfold InAnyCase; decide) hbody) .nil))
        (.cons (.not (.group rfl .nil)) .nil)))
  exact ⟨hf, spellings_read hf hspells⟩

/-- In upper case the key of a group is not known. -/
theorem upperCaseKey_not_read : ¬∀ (f : Filter) (j : Json), f.WellFormed →
    Spells (fun clause k => InAnyCase clause.keyword k) f j → Filter.ofWire j = .ok (some f) := by
  intro h
  have hspells : Spells (fun clause k => InAnyCase clause.keyword k) (.group .and [])
      (.obj [("AND", .arr [])]) := .group rfl .nil
  have hread := h (.group .and []) _ trivial hspells
  have hunknown : Filter.ofWire (.obj [("AND", .arr [])]) =
      .error (.unknownElement (Json.obj [("AND", .arr [])]).text) := rfl
  rw [hunknown] at hread
  cases hread

end Wire
end Polystore
