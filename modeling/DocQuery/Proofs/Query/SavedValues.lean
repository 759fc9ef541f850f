import DocQuery.Proofs.Properties.Dump
import DocQuery.Proofs.Selector.Conjunction
import DocQuery.Proofs.StoreValue.Equality
import DocQuery.Query.Compile
import DocQuery.Selector.Match

/-!
# Saved values are found

A query for a value of a record asks the field under which the record keeps the value for the value that it keeps there:
dumping and compiling resolve the name alike and store the value alike, whether it fits its type or is coerced. The
saved document then meets the demand, because the value equals itself. Three things can come between: a point in the
stored name makes a path of it, what is not a number equals nothing, and a plain demand that looks like operators is
taken for operators.
-/

namespace DocQuery

namespace Selector

theorem holds_self {v : StoreValue} (hv : v.holdsNaN = false) : holds (some v) v = true := by
  unfold holds
  split
  · next h => cases h
  · next h =>
    cases h
    simp [StoreValue.sameItems_self hv]
  · next h =>
    cases h
    exact StoreValue.equals_self hv

/-- A demand that is not taken for operators asks for equality. -/
theorem meets_plain {demand : StoreValue} (hplain : ∀ fields, demand = .document fields → isOperators fields = false)
    (value : Option StoreValue) : meets value demand = .ok (holds value demand) := by
  unfold meets
  split
  · next fields => simp [hplain fields rfl]
  · rfl

end Selector

namespace Query

variable {ps : Properties}

/-- A query for the conditions compiles, and the document is among those that it asks for. -/
def Finds (ps : Properties) (conditions : Conditions) (d : Document) : Prop :=
  ∃ selector, selectorOf ps conditions = .ok selector ∧ d.satisfies selector = .ok true

/-- A document is found by a single condition if the value at the stored name meets what the condition asks. -/
theorem finds_single {subject : Subject} {v : Value} {demand : StoreValue} {d : Document}
    (hdemand : constraint ps subject v = .ok demand)
    (hmeets : Selector.meets (d.lookUp? (ps.resolve subject.fieldName)) demand = .ok true) :
    Finds ps [(subject, v)] d := by
  have hentry : selectorEntry ps (subject, v) = .ok (ps.resolve subject.fieldName, demand) := by
    rw [selectorEntry, hdemand]
    rfl
  refine ⟨[(ps.resolve subject.fieldName, demand)], ?_, ?_⟩
  · rw [selectorOf, List.mapM_cons, hentry]
    rfl
  · rw [Document.satisfies, Selector.allOk_singleton]
    exact hmeets

theorem constraint_equal (ps : Properties) (name : String) (v : Value) :
    constraint ps (.operator ⟨name, .known .equal⟩) v =
      .ok (.document [(Comparison.equal.token, ps.toStore name v)]) := by
  cases v <;> rfl

section Kept

variable {name : String} {v : Value} {d : Document}

theorem finds_equal (hholds : Selector.holds (d.lookUp? (ps.resolve name)) (ps.toStore name v) = true) :
    Finds ps [(.operator ⟨name, .known .equal⟩, v)] d := by
  apply finds_single (constraint_equal ps name v)
  rw [Selector.meets_operator, Subject.fieldName, Selector.evaluate, hholds]

theorem finds_oneOf (hholds : Selector.holds (d.lookUp? (ps.resolve name)) (ps.toStore name v) = true) :
    Finds ps [(.operator ⟨name, .known .oneOf⟩, .array [v])] d := by
  have hdemand : constraint ps (.operator ⟨name, .known .oneOf⟩) (.array [v]) =
      .ok (.document [(Comparison.oneOf.token, .array [ps.toStore name v])]) := rfl
  apply finds_single hdemand
  rw [Selector.meets_operator, Subject.fieldName]
  simp [Selector.evaluate, Selector.operandItems, StoreValue.items?, Except.map, hholds]

theorem finds_plain (hholds : Selector.holds (d.lookUp? (ps.resolve name)) (ps.toStore name v) = true)
    (hplain : ∀ fields, ps.toStore name v = .document fields → Selector.isOperators fields = false) :
    Finds ps [(.field name, v)] d := by
  apply finds_single (rfl : constraint ps (.field name) v = .ok (ps.toStore name v))
  rw [Subject.fieldName, Selector.meets_plain hplain, hholds]

end Kept

/-- A dumped record is found by each value that it holds, asked for as equal, as one of a list or plainly. -/
theorem saved_values_found {declarations : List Property} (hdeclared : Properties.ofList declarations = ps)
    (hstored : ps.storedNames.Nodup) {a : Attributes} (hsorted : a.IsSorted) (hapart : ps.KeepsApart a.keys)
    {name : String} {v : Value} (hvalue : a.get? name = some v) (hpath : '.' ∉ (ps.resolve name).toList)
    (hnumbers : (ps.toStore name v).holdsNaN = false) :
    Finds ps [(.operator ⟨name, .known .equal⟩, v)] (ps.dump a) ∧
    Finds ps [(.operator ⟨name, .known .oneOf⟩, .array [v])] (ps.dump a) ∧
    ((∀ fields, ps.toStore name v = .document fields → Selector.isOperators fields = false) →
      Finds ps [(.field name, v)] (ps.dump a)) := by
  subst hdeclared
  have hkept := (Properties.distinct_ofList hstored).get?_dump hsorted.nodup_keys hapart hvalue
  rw [← Document.lookUp?_of_plain _ hpath] at hkept
  have hholds := Selector.holds_self hnumbers
  rw [← hkept] at hholds
  exact ⟨finds_equal hholds, finds_oneOf hholds, finds_plain hholds⟩

/-! ### A coerced value under another property's name -/

def memberDeclarations : List Property := [⟨"born", .date, "since"⟩, ⟨"since", .array .integer, "born"⟩]

def memberProperties : Properties := .ofList memberDeclarations

def member : Attributes := [("born", .string " 2009-1-3"), ("note", .null), ("since", .array [.string "7", .null])]

theorem member_found :
    memberProperties.dump member =
        [("since", .string "2009-01-03"), ("born", .array [.int64 7, .null]), ("note", .null)] ∧
      Finds memberProperties [(.operator ⟨"born", .known .equal⟩, .string " 2009-1-3")] (memberProperties.dump member) ∧
      Finds memberProperties [(.operator ⟨"born", .known .oneOf⟩, .array [.string " 2009-1-3"])]
        (memberProperties.dump member) ∧
      Finds memberProperties [(.field "born", .string " 2009-1-3")] (memberProperties.dump member) := by
  have hplain : ∀ fields, memberProperties.toStore "born" (.string " 2009-1-3") = .document fields →
      Selector.isOperators fields = false := by
    intro fields hfields
    have htext : memberProperties.toStore "born" (.string " 2009-1-3") = .string "2009-01-03" := rfl
    rw [htext] at hfields
    cases hfields
  have hfound := saved_values_found (rfl : Properties.ofList memberDeclarations = memberProperties)
    (by decide +kernel) (a := member) (by decide +kernel) (by unfold Properties.KeepsApart; decide +kernel)
    (rfl : member.get? "born" = some (.string " 2009-1-3")) (by decide +kernel) rfl
  exact ⟨rfl, hfound.1, hfound.2.1, hfound.2.2 hplain⟩

end Query

end DocQuery
