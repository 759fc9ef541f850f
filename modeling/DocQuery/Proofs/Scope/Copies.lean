import DocQuery.Proofs.Outcomes
import DocQuery.Scope.Basic

/-!
# The copies that a scope runs

Looking for the first record or for any document runs a copy of the scope with the limit one, and looking for a
record by a value runs one that is narrowed by a plain condition before. Compiling resolves the conditions to a
selector and the order to fields to sort by, either of which can fail, and writes the options from them, which
cannot. A limit only shows in the options, and a plain condition can always be compiled. So the copies compile
just if the scope does, and fail as it does.
-/

namespace DocQuery

namespace Query

theorem compile_of_resolved {ps : Properties} {c : Criteria} {selector : Document} {keys : List SortKey}
    (hselector : selectorOf ps (c.conditions.getD []) = .ok selector) (hkeys : SortTerm.allSortKeys c.order = .ok keys) :
    compile ps c = .ok ⟨selector, optionsOf ps c keys⟩ := by
  rw [compile, hselector, hkeys]
  rfl

theorem compile_eq_error_iff {ps : Properties} {c : Criteria} {e : CompileError} :
    compile ps c = .error e ↔ selectorOf ps (c.conditions.getD []) = .error e ∨
      (∃ selector, selectorOf ps (c.conditions.getD []) = .ok selector) ∧ SortTerm.allSortKeys c.order = .error e := by
  rw [compile, bind_eq_error_iff, ← exists_and_right]
  refine or_congr Iff.rfl (exists_congr fun selector => and_congr Iff.rfl ?_)
  rw [bind_eq_error_iff]
  exact ⟨fun h => h.resolve_right nofun, .inl⟩

/-! ### Plain conditions -/

/-- A plain condition neither fails to compile nor keeps another condition from failing. -/
theorem mapM_selectorEntry_put_field (ps : Properties) (name : String) (v : Value) (cs : Conditions) (e : CompileError) :
    (cs.put (.field name) v).mapM (selectorEntry ps) = .error e ↔ cs.mapM (selectorEntry ps) = .error e := by
  have hplain : ∀ w, selectorEntry ps (.field name, w) = .ok (ps.resolve name, ps.toStore name w) := fun _ => rfl
  induction cs with
  | nil =>
    rw [Entries.put, List.mapM_cons, hplain]
    constructor <;> intro h <;> cases h
  | cons c rest ih =>
    obtain ⟨subject, w⟩ := c
    rw [Entries.put]
    by_cases hsubject : subject = .field name
    · subst hsubject
      rw [if_pos rfl, List.mapM_cons, List.mapM_cons, hplain, hplain]
      cases rest.mapM (selectorEntry ps) with
      | error e' => exact Iff.rfl
      | ok entries => constructor <;> intro h <;> cases h
    · rw [if_neg hsubject, mapM_cons_eq_error_iff, mapM_cons_eq_error_iff]
      exact or_congr Iff.rfl (and_congr Iff.rfl ih)

theorem selectorOf_put_field (ps : Properties) (name : String) (v : Value) (cs : Conditions) (e : CompileError) :
    selectorOf ps (cs.put (.field name) v) = .error e ↔ selectorOf ps cs = .error e := by
  rw [selectorOf, selectorOf, map_eq_error_iff, map_eq_error_iff, mapM_selectorEntry_put_field]

end Query

namespace Scope

variable {M : ModelKind}

/-- The scope with another offset and another limit. -/
def sliced (s : Scope M) (offset limit : Option Nat) : Scope M := { s.unloaded with offset := offset, limit := limit }

theorem compile_sliced_eq_error_iff {s : Scope M} {offset limit : Option Nat} {e : CompileError} :
    (s.sliced offset limit).compile = .error e ↔ s.compile = .error e := by
  rw [compile, compile, Query.compile_eq_error_iff, Query.compile_eq_error_iff]
  exact Iff.rfl

theorem compile_limitedTo_eq_error_iff {s : Scope M} {n : Nat} {e : CompileError} :
    (s.limitedTo n).compile = .error e ↔ s.compile = .error e := by
  have hsliced : s.limitedTo n = s.sliced s.offset (some n) := rfl
  rw [hsliced, compile_sliced_eq_error_iff]

/-- The conditions of a scope, of which there may be none. -/
theorem conditions_criteria (s : Scope M) : s.criteria.conditions.getD [] = s.conditions.foldl Conditions.merge [] := by
  rw [criteria]
  cases s.conditions <;> rfl

theorem conditions_findAllBy (s : Scope M) (field : String) (v : Value) :
    (s.findAllBy field v).criteria.conditions.getD [] = (s.criteria.conditions.getD []).put (.field field) v := by
  rw [conditions_criteria, conditions_criteria, findAllBy, having, List.foldl_append]
  rfl

theorem compile_findAllBy_eq_error_iff {s : Scope M} {field : String} {v : Value} {e : CompileError} :
    (s.findAllBy field v).compile = .error e ↔ s.compile = .error e := by
  have hselector : ∀ e, Query.selectorOf s.model.properties ((s.findAllBy field v).criteria.conditions.getD []) = .error e ↔
      Query.selectorOf s.model.properties (s.criteria.conditions.getD []) = .error e := by
    intro e
    rw [conditions_findAllBy, Query.selectorOf_put_field]
  rw [compile, compile, Query.compile_eq_error_iff, Query.compile_eq_error_iff, exists_ok_iff, exists_ok_iff]
  exact or_congr (hselector e) (and_congr (forall_congr' fun e' => not_congr (hselector e')) Iff.rfl)

end Scope

end DocQuery
