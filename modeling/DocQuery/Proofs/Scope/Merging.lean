import DocQuery.Proofs.Entries.Writing
import DocQuery.Proofs.Scope.Copies

/-!
# Merging scopes

The sets of conditions of a scope are folded into one when its criteria are asked for, and merging scopes puts the sets of
the one behind those of the other. Folding writes all conditions in order, and writing a list of entries into another is
writing what the list leaves. So folding both lists of sets is folding each and merging the two sets that they add up to:
the criteria of a merged scope are up to the criteria of its parts. On the scopes themselves merging is putting lists one
behind the other and choosing the later of two values, which is associative and leaves a scope alone that has no clauses.
-/

namespace DocQuery

/-- All conditions of a list of sets, written in order. -/
theorem Conditions.foldl_merge (cs : Conditions) (sets : List Conditions) :
    sets.foldl merge cs = Entries.putAll cs sets.flatten := by
  induction sets generalizing cs with
  | nil => rfl
  | cons ds rest ih => rw [List.foldl_cons, ih, List.flatten_cons, Entries.putAll_append, merge]

theorem Conditions.foldl_merge_append (first second : List Conditions) :
    (first ++ second).foldl merge [] = merge (first.foldl merge []) (second.foldl merge []) := by
  rw [List.foldl_append, foldl_merge _ second, foldl_merge [] second, merge]
  exact (Entries.putAll_ofList _ _).symm

/-- The criteria that two sets of criteria add up to. The limit and the offset of the second count if it has them, and
there are conditions as soon as one of the two has some, be they empty. -/
def Criteria.merge (a b : Criteria) : Criteria where
  conditions :=
    match a.conditions, b.conditions with
    | none, none => none
    | cs, ds => some ((cs.getD []).merge (ds.getD []))
  select := a.select ++ b.select
  order := a.order ++ b.order
  limit := b.limit.or a.limit
  offset := b.offset.or a.offset

namespace Criteria

variable {a b : Criteria}

theorem conditions_merge_eq_none_iff : (a.merge b).conditions = none ↔ a.conditions = none ∧ b.conditions = none := by
  rw [merge]
  cases a.conditions <;> cases b.conditions <;> simp

theorem conditions_merge_of_some (h : a.conditions ≠ none ∨ b.conditions ≠ none) :
    (a.merge b).conditions = some ((a.conditions.getD []).merge (b.conditions.getD [])) := by
  rw [merge]
  cases ha : a.conditions with
  | some => rfl
  | none =>
    cases hb : b.conditions with
    | some => rfl
    | none => exact absurd hb (h.resolve_left (not_not_intro ha))

end Criteria

namespace Scope

variable {M : ModelKind} (a b c s : Scope M)

theorem merge_assoc : (a.merge b).merge c = a.merge (b.merge c) := by
  simp only [merge, unloaded, List.append_assoc, Option.or_assoc]

theorem all_merge : (all s.model).merge s = s.unloaded := by
  simp [merge, all, unloaded]

theorem merge_all (m : Schema M) : s.merge (all m) = s.unloaded := by
  simp [merge, all, unloaded]

theorem conditions_criteria_eq_none_iff {s : Scope M} : s.criteria.conditions = none ↔ s.conditions = [] := by
  rw [criteria]
  cases s.conditions <;> simp

/-- The criteria of a merged scope are the merged criteria. -/
theorem criteria_merge : (a.merge b).criteria = a.criteria.merge b.criteria := by
  have hconditions : (a.merge b).criteria.conditions = (a.criteria.merge b.criteria).conditions := by
    by_cases hnone : a.conditions = [] ∧ b.conditions = []
    · rw [Criteria.conditions_merge_eq_none_iff.mpr (hnone.imp conditions_criteria_eq_none_iff.mpr
        conditions_criteria_eq_none_iff.mpr), conditions_criteria_eq_none_iff]
      exact List.append_eq_nil_iff.mpr hnone
    · have hsome : a.criteria.conditions ≠ none ∨ b.criteria.conditions ≠ none := by
        rwa [ne_eq, ne_eq, conditions_criteria_eq_none_iff, conditions_criteria_eq_none_iff, ← not_and_or]
      have hsets : ¬ (a.conditions ++ b.conditions).isEmpty = true := by
        rwa [List.isEmpty_iff, List.append_eq_nil_iff]
      rw [Criteria.conditions_merge_of_some hsome, conditions_criteria, conditions_criteria,
        ← Conditions.foldl_merge_append]
      exact if_neg hsets
  rw [Criteria.mk.injEq]
  exact ⟨hconditions, rfl, rfl, rfl, rfl⟩

/-- Merging scopes is associative and a scope without clauses is neutral, by the criteria and the collection. The criteria
of a merged scope are the criteria of the two merged, with conditions unless neither has any. -/
theorem merging_adds_up :
    (∀ a b c : Scope M, ((a.merge b).merge c).criteria = (a.merge (b.merge c)).criteria ∧
      ((a.merge b).merge c).currentSource = (a.merge (b.merge c)).currentSource) ∧
    (∀ s : Scope M,
      ((all s.model).merge s).criteria = s.criteria ∧ ((all s.model).merge s).currentSource = s.currentSource ∧
      (s.merge (all s.model)).criteria = s.criteria ∧ (s.merge (all s.model)).currentSource = s.currentSource) ∧
    (∀ a b : Scope M, (a.merge b).criteria = a.criteria.merge b.criteria ∧
      ((a.merge b).criteria.conditions = none ↔ a.criteria.conditions = none ∧ b.criteria.conditions = none)) := by
  refine ⟨fun a b c => ?_, fun s => ?_, fun a b => ⟨criteria_merge a b, ?_⟩⟩
  · rw [merge_assoc]
    exact ⟨rfl, rfl⟩
  · rw [all_merge, merge_all]
    exact ⟨rfl, rfl, rfl, rfl⟩
  · rw [criteria_merge]
    exact Criteria.conditions_merge_eq_none_iff

end Scope

end DocQuery
