import DocQuery.Database.Model
import DocQuery.Proofs.Converter.Equality
import DocQuery.Proofs.Properties.Dump
import DocQuery.Proofs.Query.Demands
import DocQuery.Proofs.Scope.Copies

/-!
# Equal scopes

Scopes are compared by the native values of their conditions and run with the stored ones. Equal scopes have the same
subjects in the same order, so they fail to compile alike, and all their clauses but the conditions are the same. Their
selectors ask something of the same fields, and there they can differ: where a float is stored as a text, two zeros that
are equal are not written alike.
-/

namespace DocQuery

namespace Query

variable {ps : Properties} {cs ds : Conditions} {subject : Subject} {v w : Value}

/-! ### Conditions on equal values -/

/-- How the operand of an operator is stored. -/
def operandConverter (ps : Properties) (op : Operator) (v : Value) : Converter :=
  if op.comparator.takesLiteral then .generic
  else
    match v with
    | .array _ => if op.comparator.takesList then .array (ps.converter op.field) else ps.converter op.field
    | _ => ps.converter op.field

theorem operand_eq (ps : Properties) (op : Operator) (v : Value) :
    operand ps op v = (operandConverter ps op v).toStore v := by
  unfold operand operandConverter
  by_cases hliteral : op.comparator.takesLiteral = true
  · rw [if_pos hliteral, if_pos hliteral]
    rfl
  · rw [if_neg hliteral, if_neg hliteral]
    cases v with
    | array items =>
      by_cases hlist : op.comparator.takesList = true
      · simp only [hlist, if_true]
        exact congrArg StoreValue.array (List.map_congr_left fun item _ => ps.toStore_eq op.field item)
      · simp only [hlist]
        exact ps.toStore_eq _ _
    | _ => exact ps.toStore_eq _ _

def conversion (ps : Properties) (c : Subject × Value) : Converter :=
  match c.1 with
  | .field name => ps.converter name
  | .operator op => operandConverter ps op c.2

def texts (ps : Properties) (c : Subject × Value) : List Double := (conversion ps c).texts c.2

/-- What a condition asks of its field, given the stored value. -/
def framed (subject : Subject) (v : StoreValue) : StoreValue :=
  match subject with
  | .field _ => v
  | .operator op => .document [("$" ++ op.comparator.text, v)]

theorem demand_eq (ps : Properties) (c : Subject × Value) : demand ps c = framed c.1 ((conversion ps c).toStore c.2) := by
  obtain ⟨subject, v⟩ := c
  cases subject with
  | field name => exact ps.toStore_eq name v
  | operator op => exact congrArg (fun a => StoreValue.document [("$" ++ op.comparator.text, a)]) (operand_eq ps op v)

theorem framed_same (subject : Subject) (a b : StoreValue) : (framed subject a).same (framed subject b) = a.same b := by
  cases subject with
  | field => rfl
  | operator => simp [framed, StoreValue.same, StoreValue.sameFields]

theorem holdsNaN_framed (subject : Subject) (a : StoreValue) : (framed subject a).holdsNaN = a.holdsNaN := by
  cases subject with
  | field => rfl
  | operator => simp [framed, StoreValue.holdsNaN, StoreValue.fieldsHoldNaN]

theorem conversion_eq_of_same (hsame : Value.Same v w) : conversion ps (subject, v) = conversion ps (subject, w) := by
  cases subject with
  | field => rfl
  | operator op =>
    -- The conversion of an operand depends on whether it is an array, and equal values are both arrays or neither is.
    cases hsame <;> rfl

theorem demand_same (hsame : Value.Same v w) (hnumbers : (demand ps (subject, v)).holdsNaN = false)
    (htexts : texts ps (subject, v) = texts ps (subject, w)) :
    (demand ps (subject, v)).same (demand ps (subject, w)) = true := by
  rw [texts, texts, ← conversion_eq_of_same hsame] at htexts
  rw [demand_eq, holdsNaN_framed] at hnumbers
  rw [demand_eq, demand_eq, framed_same, ← conversion_eq_of_same hsame]
  exact Converter.toStore_same hsame hnumbers htexts

theorem texts_eq_of_demand_same (hsame : Value.Same v w) (horderly : (conversion ps (subject, v)).Orderly v)
    (hdemand : (demand ps (subject, v)).same (demand ps (subject, w)) = true) :
    texts ps (subject, v) = texts ps (subject, w) := by
  rw [demand_eq, demand_eq, framed_same, ← conversion_eq_of_same hsame] at hdemand
  rw [texts, texts, ← conversion_eq_of_same hsame]
  exact Converter.texts_eq_of_toStore_same hsame horderly hdemand

/-! ### Sets of conditions -/

/-- The floats that a selector shows as texts, field by field. -/
def textsInForce (ps : Properties) (cs : Conditions) : Entries String (List Double) :=
  Entries.ofList (cs.map fun c => (target ps c, texts ps c))

/-- The maps that the conversions of conditions go into have distinct names. -/
def Orderly (ps : Properties) (cs : Conditions) : Prop := ∀ c ∈ cs, (conversion ps c).Orderly c.2

/-- Equal sets of conditions are the two sides of one set of pairs. -/
theorem exists_pairs_of_same : ∀ {cs ds : Conditions}, cs.same ds = true →
    ∃ pairs : Entries Subject (Value × Value), cs = pairs.mapValues Prod.fst ∧ ds = pairs.mapValues Prod.snd ∧
      ∀ e ∈ pairs, Value.Same e.2.1 e.2.2
  | [], [], _ => ⟨[], rfl, rfl, nofun⟩
  | [], _ :: _, hsame | _ :: _, [], hsame => by simp [Conditions.same] at hsame
  | (s, v) :: cs, (t, w) :: ds, hsame => by
    obtain ⟨hhead, hrest⟩ := Bool.and_eq_true_iff.mp hsame
    obtain ⟨hsubject, hvalue⟩ := Bool.and_eq_true_iff.mp hhead
    cases of_decide_eq_true hsubject
    obtain ⟨pairs, rfl, rfl, hpairs⟩ := exists_pairs_of_same hrest
    exact ⟨(s, v, w) :: pairs, rfl, rfl, List.forall_mem_cons.mpr ⟨Value.Same.of_same hvalue, hpairs⟩⟩

/-- The pairs that count, under the stored names of their fields. -/
def inForce (ps : Properties) (pairs : Entries Subject (Value × Value)) : Entries String (Subject × Value × Value) :=
  Entries.ofList (pairs.map fun e => (ps.resolve e.1.fieldName, e))

theorem nodup_keys_inForce (ps : Properties) (pairs : Entries Subject (Value × Value)) : (inForce ps pairs).keys.Nodup :=
  Entries.nodup_keys_ofList _

theorem ofList_side {γ : Type} (f : Subject × Value → γ) (side : Value × Value → Value)
    (pairs : Entries Subject (Value × Value)) :
    Entries.ofList ((pairs.mapValues side).map fun c => (target ps c, f c)) =
      (inForce ps pairs).mapValues fun e => f (e.1, side e.2) := by
  rw [inForce, ← Entries.ofList_mapValues, Entries.mapValues, Entries.mapValues, List.map_map, List.map_map]
  rfl

theorem fault?_eq_of_same (hsame : cs.same ds = true) : fault? cs = fault? ds := by
  obtain ⟨pairs, rfl, rfl, -⟩ := exists_pairs_of_same hsame
  rw [fault?, fault?, Entries.mapValues, Entries.mapValues, List.findSome?_map, List.findSome?_map]
  rfl

theorem mem_pairs_of_mem_inForce {pairs : Entries Subject (Value × Value)} {e : String × Subject × Value × Value}
    (he : e ∈ inForce ps pairs) : e.2 ∈ pairs := by
  obtain ⟨pair, hpair, rfl⟩ := List.mem_map.mp (Entries.mem_of_mem_ofList he)
  exact hpair

theorem demands_same (hsame : cs.same ds = true) (hnumbers : (StoreValue.document (demands ps cs)).holdsNaN = false)
    (htexts : textsInForce ps cs = textsInForce ps ds) : (demands ps cs).same (demands ps ds) = true := by
  obtain ⟨pairs, rfl, rfl, hpairs⟩ := exists_pairs_of_same hsame
  rw [textsInForce, textsInForce, ofList_side, ofList_side, Entries.mapValues, Entries.mapValues, List.map_inj_left] at htexts
  rw [demands, ofList_side, StoreValue.holdsNaN, StoreValue.fieldsHoldNaN_eq_false_iff, Entries.mapValues,
    List.forall_mem_map] at hnumbers
  rw [demands, demands, ofList_side, ofList_side]
  refine StoreValue.document_same_of_forall fun e he => ?_
  exact demand_same (hpairs _ (mem_pairs_of_mem_inForce he)) (hnumbers e he) (congrArg Prod.snd (htexts e he))

theorem textsInForce_eq_of_demands_same (hsame : cs.same ds = true) (horderly : Orderly ps cs)
    (hdemands : (demands ps cs).same (demands ps ds) = true) : textsInForce ps cs = textsInForce ps ds := by
  obtain ⟨pairs, rfl, rfl, hpairs⟩ := exists_pairs_of_same hsame
  rw [demands, demands, ofList_side, ofList_side, Document.same,
    StoreValue.document_same_iff (nodup_keys_inForce ps pairs)] at hdemands
  rw [textsInForce, textsInForce, ofList_side, ofList_side, Entries.mapValues, Entries.mapValues, List.map_inj_left]
  intro e he
  have hpair := mem_pairs_of_mem_inForce he
  have hmaps := horderly _ (List.mem_map_of_mem hpair)
  rw [texts_eq_of_demand_same (hpairs _ hpair) hmaps (hdemands e he)]

/-! ### Options -/

theorem holdsNaN_optionsOf (ps : Properties) (c : Criteria) (keys : List SortKey) :
    (StoreValue.document (optionsOf ps c keys)).holdsNaN = false := by
  have hstrings : ∀ names : List String, StoreValue.holdNaN (names.map .string) = false :=
    fun names => StoreValue.holdNaN_eq_false_iff.mpr (List.forall_mem_map.mpr fun _ _ => rfl)
  have hkeys : StoreValue.holdNaN (keys.map (sortValue ps)) = false :=
    StoreValue.holdNaN_eq_false_iff.mpr (List.forall_mem_map.mpr fun _ _ => rfl)
  rw [StoreValue.holdsNaN, StoreValue.fieldsHoldNaN_eq_false_iff, optionsOf]
  cases c.offset <;> cases c.limit <;> cases c.select.isEmpty <;> cases keys.isEmpty <;>
    simp [StoreValue.holdsNaN, countValue, hstrings, hkeys]

theorem optionsOf_congr (ps : Properties) {c c' : Criteria} (hselect : c.select = c'.select) (hlimit : c.limit = c'.limit)
    (hoffset : c.offset = c'.offset) (keys : List SortKey) : optionsOf ps c keys = optionsOf ps c' keys := by
  rw [optionsOf, optionsOf, hselect, hlimit, hoffset]

end Query

namespace Scope

variable {M : ModelKind} {s t : Scope M}

theorem clauses_of_same (hsame : s.same t = true) :
    s.model.properties = t.model.properties ∧ s.select = t.select ∧ s.order = t.order ∧ s.limit = t.limit ∧
      s.offset = t.offset ∧ (s.criteria.conditions.getD []).same (t.criteria.conditions.getD []) = true := by
  simp only [same, Criteria.same, Bool.and_eq_true, decide_eq_true_iff] at hsame
  obtain ⟨⟨⟨-, hproperties⟩, -⟩, ⟨⟨⟨hconditions, hselect⟩, horder⟩, hlimit⟩, hoffset⟩ := hsame
  refine ⟨hproperties, hselect, horder, hlimit, hoffset, ?_⟩
  split at hconditions
  · next hs ht =>
    rw [hs, ht]
    exact hconditions
  · next hs ht =>
    rw [hs, ht]
    rfl
  · cases hconditions

/-- The floats that the selector of a scope shows as texts, field by field. -/
def texts (s : Scope M) : Entries String (List Double) :=
  Query.textsInForce s.model.properties (s.criteria.conditions.getD [])

/-- The maps in the conditions of a scope have distinct names, as far as conversions go into them. -/
def Orderly (s : Scope M) : Prop := Query.Orderly s.model.properties (s.criteria.conditions.getD [])

/-- Equal scopes fail to compile with the same error, or they compile with the same options and with selectors that are
equal just if they show the same floats as texts and hold nothing that does not equal itself. -/
theorem same_scopes_same_query :
    ∀ s t : Scope M, s.same t = true →
      (∃ e, s.compile = .error e ∧ t.compile = .error e) ∨
      ∃ p q, s.compile = .ok p ∧ t.compile = .ok q ∧ p.options = q.options ∧ p.options.same q.options = true ∧
        ((StoreValue.document p.selector).holdsNaN = false → s.texts = t.texts → p.selector.same q.selector = true) ∧
        (p.selector.same q.selector = true → (StoreValue.document p.selector).holdsNaN = false ∧
          (s.Orderly → s.texts = t.texts)) := by
  intro s t hsame
  obtain ⟨hproperties, hselect, horder, hlimit, hoffset, hconditions⟩ := clauses_of_same hsame
  have hs := Query.selectorOf_eq s.model.properties (s.criteria.conditions.getD [])
  have ht := Query.selectorOf_eq t.model.properties (t.criteria.conditions.getD [])
  -- Both scopes are compiled in the same stages, and neither stage looks at anything in which equal scopes differ.
  rw [← Query.fault?_eq_of_same hconditions] at ht
  have hterms : SortTerm.allSortKeys t.criteria.order = SortTerm.allSortKeys s.order := congrArg _ horder.symm
  cases hfault : Query.fault? (s.criteria.conditions.getD []) with
  | some e =>
    rw [hfault] at hs ht
    exact .inl ⟨e, Query.compile_eq_error_iff.mpr (.inl hs), Query.compile_eq_error_iff.mpr (.inl ht)⟩
  | none =>
    rw [hfault] at hs ht
    cases hkeys : SortTerm.allSortKeys s.order with
    | error e =>
      exact .inl ⟨e, Query.compile_eq_error_iff.mpr (.inr ⟨⟨_, hs⟩, hkeys⟩),
        Query.compile_eq_error_iff.mpr (.inr ⟨⟨_, ht⟩, hterms.trans hkeys⟩)⟩
    | ok keys =>
      have hoptions : Query.optionsOf s.model.properties s.criteria keys =
          Query.optionsOf t.model.properties t.criteria keys := by
        rw [← hproperties]
        exact Query.optionsOf_congr s.model.properties hselect hlimit hoffset keys
      refine .inr ⟨_, _, Query.compile_of_resolved hs hkeys, Query.compile_of_resolved ht (hterms.trans hkeys), hoptions, ?_, ?_, ?_⟩
      · rw [← hoptions]
        exact StoreValue.same_self (Query.holdsNaN_optionsOf ..)
      · intro hnumbers htexts
        rw [texts, texts, ← hproperties] at htexts
        rw [← hproperties]
        exact Query.demands_same hconditions hnumbers htexts
      · intro hselectors
        refine ⟨StoreValue.holdsNaN_of_same hselectors, fun horderly => ?_⟩
        rw [← hproperties] at hselectors
        rw [texts, texts, ← hproperties]
        exact Query.textsInForce_eq_of_demands_same hconditions horderly hselectors

/-! ### The two zeros -/

def note : Schema Model.kind := Model.schema
  ⟨"Note", "Note", .ofList [⟨"title", .string, "title"⟩, ⟨"score", .float, "score"⟩], ⟨"notes", "notes"⟩, [], .once⟩

def notesWith (field : String) (x : Double) : Scope Model.kind := (all note).having [(.field field, .float x)]

def positiveZero : Double := .ofMagnitude false 0

def negativeZero : Double := .ofMagnitude true 0

theorem zero_scores_same_query :
    ∃ p q, (notesWith "score" positiveZero).compile = .ok p ∧ (notesWith "score" negativeZero).compile = .ok q ∧
      p.options.same q.options = true ∧ p.selector.same q.selector = true := by
  have hsame : (notesWith "score" positiveZero).same (notesWith "score" negativeZero) = true := by decide +kernel
  rcases same_scopes_same_query _ _ hsame with ⟨e, he, -⟩ | ⟨p, q, hp, hq, -, hoptions, hselectors, -⟩
  · cases he
  · cases hp
    exact ⟨_, q, rfl, hq, hoptions, hselectors (by decide +kernel) rfl⟩

/-- A text for which the two zeros are asked shows which of them it was. -/
theorem zero_titles_ne_query :
    ¬ ∀ s t : Scope Model.kind, s.same t = true → (∃ e, s.compile = .error e ∧ t.compile = .error e) ∨
      ∃ p q, s.compile = .ok p ∧ t.compile = .ok q ∧ p.selector.same q.selector = true ∧
        p.options.same q.options = true := by
  intro hclaim
  have hsame : (notesWith "title" positiveZero).same (notesWith "title" negativeZero) = true := by decide +kernel
  rcases hclaim _ _ hsame with ⟨e, he, -⟩ | ⟨p, q, hp, hq, hselectors, -⟩
  · cases he
  · cases hp
    cases hq
    exact absurd hselectors (by decide +kernel)

end Scope

end DocQuery
