import DocQuery.Proofs.Query.Demands
import DocQuery.Proofs.Query.SavedValues
import DocQuery.Proofs.StoreValue.Depth

/-!
# Plain conditions and operators for equality

A plain condition writes its value bare into the selector, and the store decides from the shape of a demand whether it is
one of operators. So a plain condition asks for equality, like the operator for it, unless its value is stored as a
document whose names all look like operators: then these operators are applied, or the selector is rejected if there is
no such operator. The two conditions do come apart on such a value. A document is deeper than the operands in it, so
operators cannot tell it from a document that is deeper still, while equality can.
-/

namespace DocQuery

namespace Selector

/-- Whether a demand under these names applies operators: there are names, and all of them start with a dollar sign. -/
def areOperators (names : List String) : Bool := !names.isEmpty && names.all fun name => name.toList.head? = some '$'

theorem isOperators_eq (fields : Document) : isOperators fields = areOperators fields.keys := by
  cases fields with
  | nil => rfl
  | cons e rest => simp [isOperators, areOperators, Entries.keys, List.all_map, Function.comp_def]

end Selector

def StoreValue.isOperators : StoreValue → Bool
  | .document fields => Selector.isOperators fields
  | _ => false

theorem StoreValue.isOperators_iff {v : StoreValue} :
    v.isOperators = true ↔ ∃ fields, v = .document fields ∧ Selector.isOperators fields = true := by
  constructor
  · intro hv
    cases v with
    | document fields => exact ⟨fields, rfl, hv⟩
    | _ => cases hv
  · rintro ⟨fields, rfl, hfields⟩
    exact hfields

/-- Whether the generic conversion of a value is a document that a store takes for operators. -/
def Value.namesOperators : Value → Bool
  | .map entries => Selector.areOperators (Entries.keys entries)
  | .raw v => v.isOperators
  | _ => false

theorem Value.isOperators_toStored (v : Value) : v.toStored.isOperators = v.namesOperators := by
  cases v with
  | map entries =>
    rw [toStored, toStoredEntries_eq_mapValues, StoreValue.isOperators, Selector.isOperators_eq, namesOperators]
    exact congrArg _ (List.map_map ..)
  | raw v => rfl
  | _ => rfl

/-- Every conversion but that of truth values stores the names of a map or a document as they are. -/
theorem Converter.isOperators_toStore {c : Converter} (hc : c ≠ .boolean) (v : Value) :
    (c.toStore v).isOperators = v.namesOperators := by
  cases c with
  | boolean => exact absurd rfl hc
  | generic | named => exact v.isOperators_toStored
  | map inner =>
    cases v with
    | map entries =>
      rw [toStore, StoreValue.isOperators, Selector.isOperators_eq, Value.namesOperators]
      exact congrArg _ (List.map_map ..)
    | _ => exact Value.isOperators_toStored _
  | array inner =>
    cases v with
    | array items => rfl
    | _ => exact Value.isOperators_toStored _
  | integer =>
    cases v with
    | string s =>
      rw [toStore, storeInteger]
      cases readInteger s <;> rfl
    | map | raw => exact Value.isOperators_toStored _
    | _ => rfl
  | float =>
    cases v with
    | string s =>
      rw [toStore, storeFloat]
      cases readFloat s <;> rfl
    | map | raw => exact Value.isOperators_toStored _
    | _ => rfl
  | date =>
    cases v with
    | string s =>
      rw [toStore, storeDate]
      cases Date.ofText? (Text.trim s.toList) <;> rfl
    | map | raw => exact Value.isOperators_toStored _
    | _ => rfl
  | time =>
    cases v with
    | string s =>
      rw [toStore, storeTime]
      cases Time.ofText? (Text.trim s.toList) <;> rfl
    | map | raw => exact Value.isOperators_toStored _
    | _ => rfl
  | string | symbol =>
    cases v with
    | map | raw => exact Value.isOperators_toStored _
    | _ => rfl

theorem PropertyType.eq_boolean_of_converter (type : PropertyType) (hconverter : type.converter = .boolean) :
    type = .boolean := by
  cases type with
  | boolean => rfl
  | _ => cases hconverter

theorem Converter.isOperators_storeBoolean (v : Value) : (storeBoolean v).isOperators = false := by
  rw [storeBoolean]
  cases truth? v <;> rfl

theorem Properties.isOperators_toStore (ps : Properties) (field : String) (v : Value) :
    (ps.toStore field v).isOperators = (v.namesOperators && ps.type? field ≠ some .boolean) := by
  rw [toStore]
  cases htype : ps.type? field with
  | none => simpa using v.isOperators_toStored
  | some type =>
    by_cases hboolean : type = .boolean
    · subst hboolean
      exact (Converter.isOperators_storeBoolean v).trans (by simp)
    · have hconverter : type.converter ≠ .boolean := fun hconverter => hboolean (type.eq_boolean_of_converter hconverter)
      simpa [hboolean] using Converter.isOperators_toStore hconverter v

namespace Selector

/-! ### Telling documents apart -/

section Apart

variable {fields others : Document} {c : Comparison} {operand : StoreValue}

theorem holds_document_eq_false (hdepth : operand.depth < (StoreValue.document fields).depth) :
    holds (some (.document fields)) operand = false := StoreValue.equals_document_eq_false hdepth

theorem any_holds_document_eq_false {items : List StoreValue}
    (hdepth : (StoreValue.array items).depth < (StoreValue.document fields).depth) :
    items.any (holds (some (.document fields))) = false := by
  refine List.any_eq_false.mpr fun item hitem => Bool.eq_false_iff.mp (holds_document_eq_false ?_)
  exact Nat.lt_of_le_of_lt (Nat.le_succ_of_le (StoreValue.depth_le_of_mem_items hitem)) hdepth

theorem stands_document_eq_false (accept : Ordering → Bool) (operand : StoreValue) :
    stands accept (some (.document fields)) operand = false := by
  cases operand <;> rfl

/-- An operator says the same of two documents that are deeper than its operand. -/
theorem evaluate_document_congr (hfields : operand.depth < (StoreValue.document fields).depth)
    (hothers : operand.depth < (StoreValue.document others).depth) :
    evaluate (some (.document fields)) c operand = evaluate (some (.document others)) c operand := by
  cases c with
  | equal | unequal => simp only [evaluate, holds_document_eq_false hfields, holds_document_eq_false hothers]
  | above | atLeast | below | atMost => simp only [evaluate, stands_document_eq_false]
  | oneOf | noneOf =>
    cases operand with
    | array items =>
      simp only [evaluate, operandItems, StoreValue.items?, Except.map, any_holds_document_eq_false hfields,
        any_holds_document_eq_false hothers]
    | _ => rfl
  | allOf | size | present | remainder => rfl

theorem evaluateToken_document_congr (token : String) (hfields : operand.depth < (StoreValue.document fields).depth)
    (hothers : operand.depth < (StoreValue.document others).depth) :
    evaluateToken (some (.document fields)) token operand = evaluateToken (some (.document others)) token operand := by
  rw [evaluateToken, evaluateToken]
  cases Comparison.ofToken? token with
  | none => rfl
  | some c => exact evaluate_document_congr hfields hothers

end Apart

end Selector

/-! ### A document with a given value -/

def StoreValue.nest (v : StoreValue) : List String → StoreValue
  | [] => v
  | part :: rest => .document [(part, nest v rest)]

theorem StoreValue.follow?_nest (v : StoreValue) (parts : List String) : (v.nest parts).follow? parts = some v := by
  induction parts with
  | nil => rfl
  | cons part rest ih => simpa [nest, follow?, child?, Entries.get?] using ih

theorem exists_pathParts (path : String) : ∃ part rest, pathParts path = part :: rest :=
  List.exists_cons_of_ne_nil fun hparts => List.splitOn_ne_nil _ _ (List.map_eq_nil_iff.mp hparts)

theorem Document.lookUp?_nest {path part : String} {rest : List String} (hparts : pathParts path = part :: rest)
    (v : StoreValue) : Document.lookUp? [(part, v.nest rest)] path = some v := by
  rw [lookUp?, hparts]
  exact StoreValue.follow?_nest v (part :: rest)

/-- There is a document with any value at any path. -/
theorem Document.exists_lookUp? (path : String) (v : StoreValue) : ∃ d : Document, d.lookUp? path = some v := by
  obtain ⟨part, rest, hparts⟩ := exists_pathParts path
  exact ⟨_, lookUp?_nest hparts v⟩

namespace Selector

/-- Operators and equality with the document that they make up differ on some document. -/
theorem meets_ne_holds_of_isOperators {fields : Document} (hoperators : isOperators fields = true)
    (hnumbers : (StoreValue.document fields).holdsNaN = false) (path : String) :
    ∃ d : Document, meets (d.lookUp? path) (.document fields) ≠ .ok (holds (d.lookUp? path) (.document fields)) := by
  let deeper : Document := [("", .document fields)]
  have hdeeper : (StoreValue.document fields).depth < (StoreValue.document deeper).depth := by
    simp [deeper, StoreValue.depth, StoreValue.depthOfFields]
  have hoperands : ∀ e ∈ fields, e.2.depth < (StoreValue.document fields).depth :=
    fun e he => Nat.lt_succ_of_le (StoreValue.depth_le_of_mem_fields he)
  have halike : meets (some (.document fields)) (.document fields) = meets (some (.document deeper)) (.document fields) := by
    rw [meets, meets, if_pos hoperators, if_pos hoperators]
    exact allOk_congr fun e he =>
      evaluateToken_document_congr e.1 (hoperands e he) (Nat.lt_trans (hoperands e he) hdeeper)
  -- If the operators let the deeper document pass, equality does not; otherwise they turn down the document itself too.
  by_cases hmeets : meets (some (.document deeper)) (.document fields) = .ok true
  · obtain ⟨d, hd⟩ := Document.exists_lookUp? path (.document deeper)
    refine ⟨d, ?_⟩
    rw [hd, hmeets, holds_document_eq_false hdeeper]
    simp
  · obtain ⟨d, hd⟩ := Document.exists_lookUp? path (.document fields)
    refine ⟨d, ?_⟩
    rw [hd, halike, holds_self hnumbers]
    exact hmeets

end Selector

namespace Query

variable (ps : Properties) (field : String) (v : Value) (d : Document)

theorem satisfies_plain : d.satisfies [(ps.resolve field, ps.toStore field v)] =
    Selector.meets (d.lookUp? (ps.resolve field)) (ps.toStore field v) := by
  rw [Document.satisfies, Selector.allOk_singleton]

theorem satisfies_equal : d.satisfies [(ps.resolve field, .document [(Comparison.equal.token, ps.toStore field v)])] =
    .ok (Selector.holds (d.lookUp? (ps.resolve field)) (ps.toStore field v)) := by
  rw [Document.satisfies, Selector.allOk_singleton, Selector.meets_operator, Selector.evaluate]

theorem meets_eq_holds {demand : StoreValue} (hplain : demand.isOperators = false) (value : Option StoreValue) :
    Selector.meets value demand = .ok (Selector.holds value demand) := by
  refine Selector.meets_plain (fun fields hfields => ?_) value
  subst hfields
  exact hplain

theorem selectorOf_plain : selectorOf ps [(.field field, v)] = .ok [(ps.resolve field, ps.toStore field v)] := rfl

theorem selectorOf_equal : selectorOf ps [(.operator ⟨field, .known .equal⟩, v)] =
    .ok [(ps.resolve field, .document [(Comparison.equal.token, ps.toStore field v)])] := by
  rw [selectorOf, List.mapM_cons, selectorEntry, constraint_equal]
  rfl

/-- A plain condition and the operator for equality compile, and the operator can be tested on every document. The plain
condition matches the same documents unless its value is stored as a document whose names all look like operators. Then
it applies these operators, and the two conditions differ on some document, if the value equals itself. -/
theorem plain_equals_unless_operators :
    ∀ (ps : Properties) (field : String) (v : Value), ∃ plain equal,
      selectorOf ps [(.field field, v)] = .ok plain ∧
      selectorOf ps [(.operator ⟨field, .known .equal⟩, v)] = .ok equal ∧
      (∀ d : Document, ∃ matched, d.satisfies equal = .ok matched) ∧
      (v.namesOperators = false ∨ ps.type? field = some .boolean → ∀ d : Document, d.satisfies plain = d.satisfies equal) ∧
      (v.namesOperators = true → ps.type? field ≠ some .boolean →
        (∃ fields, ps.toStore field v = .document fields ∧ Selector.isOperators fields = true ∧
          ∀ d : Document, d.satisfies plain =
            Selector.allOk (fun e => Selector.evaluateToken (d.lookUp? (ps.resolve field)) e.1 e.2) fields) ∧
        ((ps.toStore field v).holdsNaN = false → ∃ d : Document, d.satisfies plain ≠ d.satisfies equal)) := by
  intro ps field v
  have hoperators := ps.isOperators_toStore field v
  refine ⟨_, _, selectorOf_plain ps field v, selectorOf_equal ps field v, ?_, ?_, ?_⟩
  · exact fun d => ⟨_, satisfies_equal ps field v d⟩
  · intro hvalue d
    have hplain : (ps.toStore field v).isOperators = false := by
      rw [hoperators]
      rcases hvalue with hvalue | htype
      · rw [hvalue, Bool.false_and]
      · simp [htype]
    rw [satisfies_plain, satisfies_equal, meets_eq_holds hplain]
  · intro hvalue htype
    have hstored : (ps.toStore field v).isOperators = true := by simp [hoperators, hvalue, htype]
    obtain ⟨fields, hdemand, hfields⟩ := StoreValue.isOperators_iff.mp hstored
    refine ⟨⟨fields, hdemand, hfields, fun d => ?_⟩, fun hnumbers => ?_⟩
    · rw [satisfies_plain, hdemand, Selector.meets]
      exact if_pos hfields
    · rw [hdemand] at hnumbers
      obtain ⟨d, hd⟩ := Selector.meets_ne_holds_of_isOperators hfields hnumbers (ps.resolve field)
      refine ⟨d, ?_⟩
      rw [satisfies_plain, satisfies_equal, hdemand]
      exact hd

/-! ### A document that looks like an operator -/

def oneUnder (name : String) : Value := .map [(name, .integer 1)]

theorem one_under_names :
    (∀ d : Document, d.satisfies [("age", .document [("gt", .int64 1)])] =
      d.satisfies [("age", .document [("$eq", .document [("gt", .int64 1)])])]) ∧
    ∃ d : Document, d.satisfies [("age", .document [("$gt", .int64 1)])] ≠
      d.satisfies [("age", .document [("$eq", .document [("$gt", .int64 1)])])] := by
  constructor
  · obtain ⟨plain, equal, hplain, hequal, -, hagree, -⟩ :=
      plain_equals_unless_operators .initial "age" (oneUnder "gt")
    cases hplain.symm.trans rfl
    cases hequal.symm.trans rfl
    exact hagree (.inl rfl)
  · obtain ⟨plain, equal, hplain, hequal, -, -, hdiffer⟩ :=
      plain_equals_unless_operators .initial "age" (oneUnder "$gt")
    cases hplain.symm.trans rfl
    cases hequal.symm.trans rfl
    exact (hdiffer rfl (by decide)).2 rfl

theorem plain_ne_equal_of_operators :
    ¬ ∀ (ps : Properties) (field : String) (v : Value) (d plain equal : Document),
      selectorOf ps [(.field field, v)] = .ok plain → selectorOf ps [(.operator ⟨field, .known .equal⟩, v)] = .ok equal →
      (d.satisfies plain = .ok true ↔ d.satisfies equal = .ok true) := by
  intro hclaim
  have hfive := hclaim .initial "age" (oneUnder "$gt") [("_id", .int64 1), ("age", .int64 5)] _ _ rfl rfl
  have hequal := hfive.mp rfl
  cases hequal

end Query

end DocQuery
