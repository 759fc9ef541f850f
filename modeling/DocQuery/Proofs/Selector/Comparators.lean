import DocQuery.Proofs.Selector.Conjunction
import DocQuery.Proofs.StoreValue.SortOrder

/-!
# How comparisons hang together

Equality is tested in one way and order in another: a value equals its like whatever its type, is equal as an item of an
array, and is null if it is missing, while only values of ordered types can be compared. On operands of ordered types the
two agree. A value that is there stands to such an operand in one of the accepted orders or has an item that does, and
equality accepts one order more than being above or being below. So the comparisons are up to the orders that they
accept, and a comparison the other way round accepts the opposite orders.
-/

namespace DocQuery

namespace Comparison

/-- The selector that compares the value at a path with an operand. -/
def selector (c : Comparison) (path : String) (operand : StoreValue) : Document :=
  [(path, .document [(c.token, operand)])]

/-- The orders to an operand of an ordered type that the comparison accepts. -/
def accepts : Comparison → Ordering → Bool
  | below => (·.isLT)
  | atMost => (·.isLE)
  | equal => (·.isEq)
  | atLeast => (·.isGE)
  | above => (·.isGT)
  | _ => fun _ => false

/-- The comparisons that go by the order alone. -/
def byOrder : List Comparison := [below, atMost, atLeast, above]

end Comparison

namespace Selector

variable {v operand : StoreValue}

/-! ### Standing in an accepted order -/

/-- The values that are compared for a value, which may be missing: an array stands for its items. -/
def candidates : Option StoreValue → List StoreValue
  | none => []
  | some (.array items) => items
  | some v => [v]

theorem candidates_of_scalar (hscalar : v.items? = none) : candidates (some v) = [v] := by
  cases v with
  | array => cases hscalar
  | _ => rfl

theorem stands_eq_any (accept : Ordering → Bool) (value : Option StoreValue) (operand : StoreValue) :
    stands accept value operand = (candidates value).any fun v => (v.compare? operand).any accept := by
  cases value with
  | none => rfl
  | some v =>
    cases v with
    | array => rfl
    | _ => exact (Bool.or_false _).symm

/-- Where something is, equality with an operand of an ordered type is one of the orders. -/
theorem holds_of_ordered (hoperand : operand.IsOrdered) : holds (some v) operand = stands (·.isEq) (some v) operand := by
  rw [stands_eq_any]
  simp only [← StoreValue.equals_of_ordered hoperand]
  cases v with
  | array items =>
    -- An array would also equal itself, but no array is of an ordered type.
    cases operand with
    | array => exact hoperand.elim
    | _ => exact Bool.or_false _
  | _ => exact (Bool.or_false _).symm

theorem stands_or (accept also : Ordering → Bool) (value : Option StoreValue) (operand : StoreValue) :
    stands (fun o => accept o || also o) value operand = (stands accept value operand || stands also value operand) := by
  have hitem : ∀ o? : Option Ordering, o?.any (fun o => accept o || also o) = (o?.any accept || o?.any also) := by
    intro o?
    cases o? <;> rfl
  rw [Bool.eq_iff_iff, Bool.or_eq_true]
  simp only [stands_eq_any, hitem, List.any_eq_true, Bool.or_eq_true, and_or_left, exists_or]

theorem stands_of_not_ordered (hoperand : ¬ operand.IsOrdered) (accept : Ordering → Bool) (value : Option StoreValue) :
    stands accept value operand = false := by
  simp [stands_eq_any, StoreValue.compare?_of_not_ordered hoperand]

theorem stands_of_scalar (hscalar : v.items? = none) (accept : Ordering → Bool) :
    stands accept (some v) operand = (v.compare? operand).any accept := by
  rw [stands_eq_any, candidates_of_scalar hscalar, List.any_cons, List.any_nil, Bool.or_false]

theorem stands_swap {a b : StoreValue} (ha : a.items? = none) (hb : b.items? = none) (accept : Ordering → Bool) :
    stands (fun o => accept o.swap) (some b) a = stands accept (some a) b := by
  rw [stands_of_scalar hb, stands_of_scalar ha, StoreValue.compare?_swap a b, Option.any_map]
  cases a.compare? b with
  | none => rfl
  | some o => exact congrArg accept Ordering.swap_swap

/-! ### Comparisons by order -/

theorem evaluate_order {c : Comparison} (hc : c ∈ Comparison.byOrder) (value : Option StoreValue) (operand : StoreValue) :
    evaluate value c operand = .ok (stands c.accepts value operand) := by
  simp only [Comparison.byOrder, List.mem_cons, List.not_mem_nil, or_false] at hc
  rcases hc with rfl | rfl | rfl | rfl <;> rfl

end Selector

namespace Document

open Comparison

variable {d : Document} {path : String} {v operand : StoreValue}

/-! ### Selectors of one comparison -/

theorem satisfies_selector (c : Comparison) (operand : StoreValue) :
    d.satisfies (c.selector path operand) = Selector.evaluate (d.lookUp? path) c operand := by
  rw [satisfies, Comparison.selector, Selector.allOk_singleton, Selector.meets_operator]

theorem isMatch_equal (operand : StoreValue) :
    d.isMatch (equal.selector path operand) = Selector.holds (d.lookUp? path) operand :=
  isMatch_of_satisfies (satisfies_selector equal operand)

theorem isMatch_byOrder {c : Comparison} (hc : c ∈ byOrder) (operand : StoreValue) :
    d.isMatch (c.selector path operand) = Selector.stands c.accepts (d.lookUp? path) operand :=
  isMatch_of_satisfies ((satisfies_selector c operand).trans (Selector.evaluate_order hc _ operand))

/-- On a value that is there, equality with an operand of an ordered type goes by the order as well. -/
theorem isMatch_of_ordered (hpresent : d.lookUp? path = some v) (hoperand : operand.IsOrdered) {c : Comparison}
    (hc : c ∈ equal :: byOrder) : d.isMatch (c.selector path operand) = Selector.stands c.accepts (some v) operand := by
  rcases List.mem_cons.mp hc with rfl | hc
  · rw [isMatch_equal, hpresent]
    exact Selector.holds_of_ordered hoperand
  · rw [isMatch_byOrder hc, hpresent]

/-! ### Negations and alternatives -/

theorem satisfies_unequal_iff {passed : Bool} :
    d.satisfies (unequal.selector path operand) = .ok passed ↔ d.satisfies (equal.selector path operand) = .ok !passed := by
  rw [satisfies_selector, satisfies_selector, Selector.evaluate, Selector.evaluate, Except.ok.injEq, Except.ok.injEq,
    Bool.not_eq_eq_eq_not]

/-- An operand that is no list makes both of them fail. -/
theorem satisfies_noneOf_iff {passed : Bool} :
    d.satisfies (noneOf.selector path operand) = .ok passed ↔ d.satisfies (oneOf.selector path operand) = .ok !passed := by
  rw [satisfies_selector, satisfies_selector, Selector.evaluate, Selector.evaluate, Selector.operandItems,
    Selector.operandItems]
  cases operand.items? with
  | none => exact iff_of_false nofun nofun
  | some items => rw [Except.map, Except.map, Except.ok.injEq, Except.ok.injEq, Bool.not_eq_eq_eq_not]

theorem satisfies_oneOf (operands : List StoreValue) :
    d.satisfies (oneOf.selector path (.array operands)) =
      .ok (operands.any fun operand => d.isMatch (equal.selector path operand)) := by
  simp only [isMatch_equal]
  exact satisfies_selector oneOf (.array operands)

/-! ### Several operators -/

theorem satisfies_operator {operators : Document} (hoperators : Selector.isOperators operators = true)
    {e : String × StoreValue} (he : e ∈ operators) :
    d.satisfies [(path, .document [e])] = Selector.evaluateToken (d.lookUp? path) e.1 e.2 := by
  have hsingle : Selector.isOperators [e] = true := by
    have hall := (Bool.and_eq_true_iff.mp hoperators).2
    simpa [Selector.isOperators] using List.all_eq_true.mp hall e he
  rw [satisfies, Selector.allOk_singleton, Selector.meets, if_pos hsingle, Selector.allOk_singleton]

theorem satisfies_operators {operators : Document} (hoperators : Selector.isOperators operators = true) :
    d.satisfies [(path, .document operators)] =
      Selector.allOk (fun e => d.satisfies [(path, .document [e])]) operators := by
  rw [satisfies, Selector.allOk_singleton, Selector.meets, if_pos hoperators]
  exact Selector.allOk_congr fun e he => (satisfies_operator hoperators he).symm

theorem isMatch_operators {operators : Document} (hoperators : Selector.isOperators operators = true) :
    d.isMatch [(path, .document operators)] = operators.all fun e => d.isMatch [(path, .document [e])] := by
  rw [Bool.eq_iff_iff, isMatch_iff, satisfies_operators hoperators, Selector.allOk_eq_true_iff, List.all_eq_true]
  simp only [isMatch_iff]

/-! ### Operands of ordered types -/

/-- A comparison that accepts what a strict one does, and ties, is met where the strict one or equality is. -/
theorem isMatch_or_equal (hpresent : d.lookUp? path = some v) (hoperand : operand.IsOrdered) {c strict : Comparison}
    (hc : c ∈ byOrder) (hstrict : strict ∈ byOrder) (haccepts : ∀ o, c.accepts o = (strict.accepts o || equal.accepts o)) :
    d.isMatch (c.selector path operand) =
      (d.isMatch (strict.selector path operand) || d.isMatch (equal.selector path operand)) := by
  rw [isMatch_of_ordered hpresent hoperand (List.mem_cons_of_mem _ hc),
    isMatch_of_ordered hpresent hoperand (List.mem_cons_of_mem _ hstrict),
    isMatch_of_ordered hpresent hoperand List.mem_cons_self, funext haccepts, Selector.stands_or]

/-- A value that is no array stands to an operand in one order. -/
theorem eq_of_isMatch (hpresent : d.lookUp? path = some v) (hscalar : v.items? = none) (hoperand : operand.IsOrdered)
    {c other : Comparison} (hc : c ∈ [below, equal, above]) (hother : other ∈ [below, equal, above])
    (hmatch : d.isMatch (c.selector path operand) = true) (hothers : d.isMatch (other.selector path operand) = true) :
    c = other := by
  have hordered : [below, equal, above] ⊆ equal :: byOrder := by decide
  have hsole : ∀ o : Ordering, ∀ c ∈ [below, equal, above], ∀ other ∈ [below, equal, above],
      c.accepts o = true → other.accepts o = true → c = other := by
    intro o
    cases o <;> decide
  rw [isMatch_of_ordered hpresent hoperand (hordered hc), Selector.stands_of_scalar hscalar] at hmatch
  rw [isMatch_of_ordered hpresent hoperand (hordered hother), Selector.stands_of_scalar hscalar] at hothers
  cases hcompare : v.compare? operand with
  | none =>
    rw [hcompare] at hmatch
    cases hmatch
  | some o =>
    rw [hcompare] at hmatch hothers
    exact hsole o c hc other hother hmatch hothers

theorem satisfies_of_not_ordered (hoperand : ¬ operand.IsOrdered) {c : Comparison} (hc : c ∈ byOrder) :
    d.satisfies (c.selector path operand) = .ok false := by
  rw [satisfies_selector, Selector.evaluate_order hc, Selector.stands_of_not_ordered hoperand]

theorem lookUp?_field {field : String} (hfield : '.' ∉ field.toList) (a : StoreValue) :
    lookUp? [(field, a)] field = some a := by
  rw [lookUp?_of_plain _ hfield, Entries.get?, if_pos rfl]

theorem isMatch_swap {field : String} (hfield : '.' ∉ field.toList) {a b : StoreValue} (ha : a.items? = none)
    (hb : b.items? = none) :
    isMatch [(field, a)] (above.selector field b) = isMatch [(field, b)] (below.selector field a) := by
  have haccepts : below.accepts = fun o => above.accepts o.swap := by
    funext o
    cases o <;> rfl
  rw [isMatch_byOrder (by decide), isMatch_byOrder (by decide), lookUp?_field hfield, lookUp?_field hfield, haccepts,
    Selector.stands_swap ha hb]

/-! ### The comparisons together -/

/-- How the comparisons of a value hang together. Those by equality and by order give an answer for every operand. Two
comparisons are the negations of two others, one of several values is to equal one of them, and several operators are a
conjunction. Where a value is there, the weak comparisons with an operand of an ordered type are the strict ones or
equality, of which a value that is no array meets one at most. Other operands are in no order to anything, and what is
above one value has that value below it. -/
theorem comparisons_agree (d : Document) (path : String) :
    (∀ c ∈ equal :: unequal :: byOrder, ∀ operand, ∃ passed, d.satisfies (c.selector path operand) = .ok passed) ∧
    (∀ operand passed, d.satisfies (unequal.selector path operand) = .ok passed ↔
      d.satisfies (equal.selector path operand) = .ok !passed) ∧
    (∀ operand passed, d.satisfies (noneOf.selector path operand) = .ok passed ↔
      d.satisfies (oneOf.selector path operand) = .ok !passed) ∧
    (∀ operands, d.satisfies (oneOf.selector path (.array operands)) =
      .ok (operands.any fun operand => d.isMatch (equal.selector path operand))) ∧
    (∀ operators : Document, Selector.isOperators operators = true →
      d.isMatch [(path, .document operators)] = operators.all (fun e => d.isMatch [(path, .document [e])]) ∧
      ((∀ e ∈ operators, ∃ passed, d.satisfies [(path, .document [e])] = .ok passed) →
        ∃ passed, d.satisfies [(path, .document operators)] = .ok passed)) ∧
    (∀ operand v, operand.IsOrdered → d.lookUp? path = some v →
      d.isMatch (atLeast.selector path operand) =
        (d.isMatch (above.selector path operand) || d.isMatch (equal.selector path operand)) ∧
      d.isMatch (atMost.selector path operand) =
        (d.isMatch (below.selector path operand) || d.isMatch (equal.selector path operand)) ∧
      (v.items? = none → ∀ c ∈ [below, equal, above], ∀ other ∈ [below, equal, above],
        d.isMatch (c.selector path operand) = true → d.isMatch (other.selector path operand) = true → c = other)) ∧
    (∀ operand, ¬ operand.IsOrdered → ∀ c ∈ byOrder, d.satisfies (c.selector path operand) = .ok false) ∧
    (∀ field a b, '.' ∉ field.toList → a.items? = none → b.items? = none →
      isMatch [(field, a)] (above.selector field b) = isMatch [(field, b)] (below.selector field a)) := by
  refine ⟨fun c hc operand => ?_, fun _ _ => satisfies_unequal_iff, fun _ _ => satisfies_noneOf_iff, satisfies_oneOf,
    fun operators hoperators => ⟨isMatch_operators hoperators, fun halone => ?_⟩,
    fun operand v hoperand hpresent => ⟨?_, ?_, ?_⟩, fun _ hoperand _ hc => satisfies_of_not_ordered hoperand hc,
    fun _ _ _ hfield ha hb => isMatch_swap hfield ha hb⟩
  · rw [satisfies_selector]
    rcases List.mem_cons.mp hc with rfl | hc
    · exact ⟨_, rfl⟩
    · rcases List.mem_cons.mp hc with rfl | hc
      · exact ⟨_, rfl⟩
      · exact ⟨_, Selector.evaluate_order hc _ operand⟩
  · rw [satisfies_operators hoperators]
    exact Selector.allOk_total halone
  · exact isMatch_or_equal hpresent hoperand (by decide) (by decide) fun o => by cases o <;> rfl
  · exact isMatch_or_equal hpresent hoperand (by decide) (by decide) fun o => by cases o <;> rfl
  · exact fun hscalar c hc other hother => eq_of_isMatch hpresent hscalar hoperand hc hother

/-! ### The comparisons of a person -/

def person : Document := [("age", .int32 36), ("tags", .array [.string "math", .string "poetry"])]

theorem person_compared :
    person.isMatch (atMost.selector "tags" (.string "math")) =
      (person.isMatch (below.selector "tags" (.string "math")) ||
        person.isMatch (equal.selector "tags" (.string "math"))) ∧
    person.isMatch [("age", .document [("$gte", .int64 30), ("$ne", .double Double.nan)])] =
      (person.isMatch [("age", .document [("$gte", .int64 30)])] &&
        person.isMatch [("age", .document [("$ne", .double Double.nan)])]) ∧
    person.satisfies (above.selector "age" (.double Double.nan)) = .ok false ∧
    isMatch [("age", .int32 36)] (above.selector "age" (.int64 30)) =
      isMatch [("age", .int64 30)] (below.selector "age" (.int32 36)) := by
  obtain ⟨-, -, -, -, -, htags, -, -⟩ := comparisons_agree person "tags"
  obtain ⟨-, -, -, -, hoperators, -, hothers, hswap⟩ := comparisons_agree person "age"
  refine ⟨(htags (.string "math") _ (by decide) rfl).2.1, ?_, hothers _ (by decide) above (by decide),
    hswap "age" _ _ (by decide) rfl rfl⟩
  rw [(hoperators _ (by decide +kernel)).1, List.all_cons, List.all_cons, List.all_nil, Bool.and_true]

end Document

end DocQuery
