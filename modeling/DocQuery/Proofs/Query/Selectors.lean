import DocQuery.Proofs.Query.Demands
import DocQuery.Proofs.Query.SortTerms
import DocQuery.Proofs.Registry.Transparency

/-!
# What compiling makes of conditions

Conditions compile just if all of their comparators name comparisons of the store, whatever becomes of them later: a
condition that another one on its stored field overwrites is looked at all the same, and before the order is. The
selector then has a place for each stored field, in the order in which the conditions first come to it, and there stands
what the last of the conditions on it asks, by the rule for its comparator.
-/

namespace DocQuery

/-- The comparator of the subject names no comparison of the store. -/
def Subject.IsUnrecognized : Subject → Prop
  | .field _ => False
  | .operator op => ∃ token, op.comparator = .unrecognized token

theorem Subject.recognized_known {field : String} {c : Comparison} : ¬ (operator ⟨field, .known c⟩).IsUnrecognized := by
  rintro ⟨token, htoken⟩
  cases htoken

theorem Subject.fault?_eq_none_iff {subject : Subject} : subject.fault? = none ↔ ¬ subject.IsUnrecognized := by
  obtain _ | ⟨field, _ | token⟩ := subject <;> simp [fault?, IsUnrecognized]

theorem Subject.eq_invalidOperator_of_fault? {subject : Subject} {e : CompileError} (hfault : subject.fault? = some e) :
    ∃ clause, e = .invalidOperator clause := by
  obtain _ | ⟨field, _ | token⟩ := subject <;> cases hfault
  exact ⟨_, rfl⟩

/-- A value of a logical field is stored by the declared type of the field, and by its kind if there is none. -/
inductive Properties.Stores (ps : Properties) (name : String) (v : Value) : StoreValue → Prop where
  | declared {type : PropertyType} (htype : ps.type? name = some type) : Stores ps name v (type.stored v)
  | undeclared (htype : ps.type? name = none) : Stores ps name v v.toStored

theorem Properties.stores_iff {ps : Properties} {name : String} {v : Value} {w : StoreValue} :
    ps.Stores name v w ↔ ps.toStore name v = w := by
  constructor
  · rintro (⟨htype⟩ | ⟨htype⟩)
    · rw [toStore, htype, ← PropertyType.toStore_converter]
    · rw [toStore, htype]
  · rintro rfl
    rw [toStore]
    split
    · next htype =>
      rw [PropertyType.toStore_converter]
      exact .declared htype
    · next htype => exact .undeclared htype

/-- The comparisons whose operand is not a value of the field. -/
def Comparison.literals : List Comparison := [size, present, remainder]

/-- The comparisons whose operand is a list of values of the field. -/
def Comparison.lists : List Comparison := [oneOf, noneOf, allOf]

namespace Query

variable {ps : Properties}

/-- What a condition asks of its field, rule by rule. -/
inductive Asks (ps : Properties) : Subject × Value → StoreValue → Prop where
  | plain {name : String} {v : Value} {w : StoreValue} (hv : ps.Stores name v w) : Asks ps (.field name, v) w
  | literal {field : String} {c : Comparison} {v : Value} (hc : c ∈ Comparison.literals) :
    Asks ps (.operator ⟨field, .known c⟩, v) (.document [(c.token, v.toStored)])
  | list {field : String} {c : Comparison} {items : List Value} {ws : List StoreValue} (hc : c ∈ Comparison.lists)
    (hitems : List.Forall₂ (ps.Stores field) items ws) :
    Asks ps (.operator ⟨field, .known c⟩, .array items) (.document [(c.token, .array ws)])
  | whole {field : String} {c : Comparison} {v : Value} {w : StoreValue} (hliteral : c ∉ Comparison.literals)
    (hlist : c ∈ Comparison.lists → ∀ items, v ≠ .array items) (hv : ps.Stores field v w) :
    Asks ps (.operator ⟨field, .known c⟩, v) (.document [(c.token, w)])

/-! ### The operand of an operator -/

theorem operand_of_literal {field : String} {c : Comparison} (hc : c ∈ Comparison.literals) (v : Value) :
    operand ps ⟨field, .known c⟩ v = v.toStored := by
  have hliteral : c.takesLiteral = true := by cases c <;> simp_all [Comparison.literals, Comparison.takesLiteral]
  exact if_pos hliteral

theorem operand_of_list {field : String} {c : Comparison} (hc : c ∈ Comparison.lists) (items : List Value) :
    operand ps ⟨field, .known c⟩ (.array items) = .array (items.map (ps.toStore field)) := by
  simp only [Comparison.lists, List.mem_cons, List.not_mem_nil, or_false] at hc
  rcases hc with rfl | rfl | rfl <;> rfl

theorem operand_of_whole {field : String} {c : Comparison} {v : Value} (hliteral : c ∉ Comparison.literals)
    (hlist : c ∈ Comparison.lists → ∀ items, v ≠ .array items) : operand ps ⟨field, .known c⟩ v = ps.toStore field v := by
  cases c with
  | size | present | remainder => exact absurd (by decide) hliteral
  | oneOf | noneOf | allOf =>
    cases v with
    | array items => exact absurd rfl (hlist (by decide) items)
    | _ => rfl
  | _ => cases v <;> rfl

theorem forall₂_stores_iff {field : String} {items : List Value} {ws : List StoreValue} :
    List.Forall₂ (ps.Stores field) items ws ↔ items.map (ps.toStore field) = ws := by
  have hstores : ps.Stores field = fun v w => ps.toStore field v = w := funext₂ fun v w => propext Properties.stores_iff
  rw [hstores, ← List.forall₂_map_left_iff, List.forall₂_eq_eq_eq]

/-- The rules say of every condition whose comparator is known what it asks, and nothing of the others. -/
theorem asks_iff {c : Subject × Value} {w : StoreValue} : Asks ps c w ↔ ¬ c.1.IsUnrecognized ∧ demand ps c = w := by
  have hdemand : ∀ {field : String} {c : Comparison} {v : Value} {w : StoreValue}, operand ps ⟨field, .known c⟩ v = w →
      demand ps (.operator ⟨field, .known c⟩, v) = .document [(c.token, w)] := by
    rintro field c v w rfl
    rfl
  constructor
  · rintro (⟨hv⟩ | ⟨hc⟩ | ⟨hc, hitems⟩ | ⟨hliteral, hlist, hv⟩)
    · exact ⟨id, Properties.stores_iff.mp hv⟩
    · exact ⟨Subject.recognized_known, hdemand (operand_of_literal hc _)⟩
    · have hlist := (operand_of_list hc _).trans (congrArg StoreValue.array (forall₂_stores_iff.mp hitems))
      exact ⟨Subject.recognized_known, hdemand hlist⟩
    · have hwhole := (operand_of_whole hliteral hlist).trans (Properties.stores_iff.mp hv)
      exact ⟨Subject.recognized_known, hdemand hwhole⟩
  · rintro ⟨hrecognized, rfl⟩
    obtain ⟨_ | ⟨field, _ | token⟩, v⟩ := c
    · exact .plain (Properties.stores_iff.mpr rfl)
    · next c =>
      by_cases hliteral : c ∈ Comparison.literals
      · rw [hdemand (operand_of_literal hliteral v)]
        exact .literal hliteral
      · by_cases hlist : c ∈ Comparison.lists → ∀ items, v ≠ .array items
        · rw [hdemand (operand_of_whole hliteral hlist)]
          exact .whole hliteral hlist (Properties.stores_iff.mpr rfl)
        · push Not at hlist
          obtain ⟨hlist, items, rfl⟩ := hlist
          rw [hdemand (operand_of_list hlist items)]
          exact .list hlist (forall₂_stores_iff.mpr rfl)
    · exact absurd ⟨token, rfl⟩ hrecognized

/-! ### Compiling -/

theorem fault?_eq_none_iff {cs : Conditions} : fault? cs = none ↔ ∀ c ∈ cs, ¬ c.1.IsUnrecognized := by
  rw [fault?, List.findSome?_eq_none_iff]
  exact forall₂_congr fun c _ => Subject.fault?_eq_none_iff

theorem compile_of_fault {c : Criteria} {e : CompileError} (hfault : fault? (c.conditions.getD []) = some e) :
    compile ps c = .error e := by
  rw [compile, selectorOf_eq, hfault]
  rfl

theorem compile_of_no_fault {c : Criteria} (hfault : fault? (c.conditions.getD []) = none) :
    compile ps c =
      (SortTerm.allSortKeys c.order).map fun keys => ⟨demands ps (c.conditions.getD []), optionsOf ps c keys⟩ := by
  rw [compile, selectorOf_eq, hfault]
  cases SortTerm.allSortKeys c.order <;> rfl

theorem exists_invalidOperator_iff {c : Criteria} :
    (∃ clause, compile ps c = .error (.invalidOperator clause)) ↔
      ∃ cond ∈ c.conditions.getD [], cond.1.IsUnrecognized := by
  constructor
  · rintro ⟨clause, hcompile⟩
    by_contra hnone
    push Not at hnone
    rw [compile_of_no_fault (fault?_eq_none_iff.mpr hnone), map_eq_error_iff] at hcompile
    obtain ⟨order, horder⟩ := SortTerm.eq_invalidOrder_of_allSortKeys hcompile
    cases horder
  · rintro ⟨cond, hcond, hunrecognized⟩
    cases hfault : fault? (c.conditions.getD []) with
    | none => exact absurd hunrecognized (fault?_eq_none_iff.mp hfault cond hcond)
    | some e =>
      obtain ⟨first, -, hfirst⟩ := List.exists_of_findSome?_eq_some hfault
      obtain ⟨clause, rfl⟩ := Subject.eq_invalidOperator_of_fault? hfirst
      exact ⟨clause, compile_of_fault hfault⟩

theorem get?_demands_eq_some_iff {cs : Conditions} {name : String} {w : StoreValue} :
    (demands ps cs).get? name = some w ↔ ∃ (before : Conditions) (cond : Subject × Value) (after : Conditions),
      cs = before ++ cond :: after ∧ target ps cond = name ∧ name ∉ targets ps after ∧ demand ps cond = w := by
  rw [demands, Entries.get?_ofList_eq_some_iff]
  constructor
  · rintro ⟨before, after, hsplit, hlast⟩
    obtain ⟨first, rest, rfl, rfl, hrest⟩ := List.map_eq_append_iff.mp hsplit
    obtain ⟨cond, later, rfl, hcond, rfl⟩ := List.map_eq_cons_iff.mp hrest
    rw [keys_entries] at hlast
    exact ⟨first, cond, later, rfl, congrArg Prod.fst hcond, hlast, congrArg Prod.snd hcond⟩
  · rintro ⟨before, cond, after, rfl, rfl, hlast, rfl⟩
    refine ⟨before.map fun c => (target ps c, demand ps c), after.map fun c => (target ps c, demand ps c), ?_, ?_⟩
    · rw [List.map_append, List.map_cons]
    · rw [keys_entries]
      exact hlast

/-- A query fails to compile for an operator just if some comparator is unrecognized, and the first one is reported, as
field and token, before any fault of the order. Otherwise the selector has the stored names of the conditions, each in
the place of the first condition on it, and under it what the last condition on it asks. -/
theorem selector_of_last_conditions (ps : Properties) (c : Criteria) :
    ((∃ clause, compile ps c = .error (.invalidOperator clause)) ↔
      ∃ cond ∈ c.conditions.getD [], cond.1.IsUnrecognized) ∧
    (∀ (before after : Conditions) (field token : String) (v : Value),
      c.conditions.getD [] = before ++ (.operator ⟨field, .unrecognized token⟩, v) :: after →
      (∀ earlier ∈ before, ¬ earlier.1.IsUnrecognized) →
      compile ps c = .error (.invalidOperator (field ++ "." ++ token))) ∧
    ((∀ cond ∈ c.conditions.getD [], ¬ cond.1.IsUnrecognized) → ∃ selector : Document,
      compile ps c = (SortTerm.allSortKeys c.order).map (fun keys => ⟨selector, optionsOf ps c keys⟩) ∧
      selector.keys = (targets ps (c.conditions.getD [])).eraseDups ∧
      ∀ name w, selector.get? name = some w ↔ ∃ (before : Conditions) (cond : Subject × Value) (after : Conditions),
        c.conditions.getD [] = before ++ cond :: after ∧ target ps cond = name ∧ name ∉ targets ps after ∧
          Asks ps cond w) := by
  refine ⟨exists_invalidOperator_iff, ?_, ?_⟩
  · intro before after field token v hconditions hbefore
    apply compile_of_fault
    rw [hconditions, fault?_append, fault?_eq_none_iff.mpr hbefore]
    rfl
  · intro hrecognized
    refine ⟨demands ps (c.conditions.getD []), compile_of_no_fault (fault?_eq_none_iff.mpr hrecognized), ?_, ?_⟩
    · rw [demands, Entries.keys_ofList, keys_entries]
    · intro name w
      rw [get?_demands_eq_some_iff]
      refine exists₃_congr fun before cond after => and_congr_right fun hconditions => ?_
      have hcond : cond ∈ c.conditions.getD [] := by simp [hconditions]
      simp only [asks_iff, hrecognized cond hcond, not_false_eq_true, true_and]

/-! ### Conditions that meet under one stored name -/

/-- A property `age` that is stored as `years`. -/
def agedProperties : Properties := .ofList [⟨"age", .integer, "years"⟩]

/-- The last condition is on `age` by its stored name, which no property has. -/
def agesByBothNames (first : String) : Conditions :=
  [(.operator (.parse "age" first), .string "30"), (.field "name", .symbol "Ada"),
    (.operator ⟨"years", .known .oneOf⟩, .array [.string "7", .integer 8])]

theorem agesByBothNames_compile :
    (∃ selector : Document,
      compile agedProperties ⟨some (agesByBothNames "$gt"), [], [], none, none⟩ = .ok ⟨selector, []⟩ ∧
      selector.keys = ["years", "name"] ∧
      selector.get? "years" = some (.document [("$in", .array [.string "7", .int64 8])])) ∧
    compile agedProperties ⟨some (agesByBothNames "Near"), [], [.field " "], none, none⟩ =
      .error (.invalidOperator "age.Near") := by
  constructor
  · obtain ⟨selector, hcompile, hkeys, hvalues⟩ := (selector_of_last_conditions agedProperties
      ⟨some (agesByBothNames "$gt"), [], [], none, none⟩).2.2 (fault?_eq_none_iff.mp rfl)
    refine ⟨selector, hcompile, hkeys.trans (by decide +kernel), (hvalues _ _).mpr ?_⟩
    have hundeclared : ∀ v, agedProperties.Stores "years" v v.toStored := fun v => .undeclared rfl
    exact ⟨(agesByBothNames "$gt").take 2, _, [], rfl, rfl, List.not_mem_nil,
      .list (by decide) (.cons (hundeclared _) (.cons (hundeclared _) .nil))⟩
  · exact (selector_of_last_conditions agedProperties _).2.1 [] _ "age" "Near" _ rfl nofun

end Query

end DocQuery
