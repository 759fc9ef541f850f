import DocQuery.Proofs.Entries.Writing
import DocQuery.Query.Conditions

/-!
# How sets of conditions add up

A set of conditions is put together from the empty one by giving values to subjects and by merging sets that were put
together in the same way. All conditions that go into it stand in one order: those of a set that is merged into another
follow the ones that were there. The set is what writing them in this order leaves, so each subject has the place of its
first condition and the value of its last one, and merging is writing one list behind the other.
-/

namespace DocQuery

/-- How a set of conditions is put together. -/
inductive Assembly where
  | empty
  /-- Gives a value to a subject, in place or in a set that is being built. -/
  | insert (set : Assembly) (subject : Subject) (value : Value)
  | merge (set other : Assembly)

namespace Assembly

def conditions : Assembly → Conditions
  | empty => []
  | insert set subject value => set.conditions.put subject value
  | merge set other => set.conditions.merge other.conditions

/-- All conditions that go into a set, in order. -/
def insertions : Assembly → List (Subject × Value)
  | empty => []
  | insert set subject value => set.insertions ++ [(subject, value)]
  | merge set other => set.insertions ++ other.insertions

/-- A set in which the given conditions are inserted one by one. -/
def ofList (cs : List (Subject × Value)) : Assembly := cs.foldl (fun set c => set.insert c.1 c.2) empty

theorem conditions_eq_ofList (a : Assembly) : a.conditions = Entries.ofList a.insertions := by
  induction a with
  | empty => rfl
  | insert set subject value ih => rw [conditions, insertions, Entries.ofList_append, ih, Entries.putAll_singleton]
  | merge set other ihSet ihOther =>
    rw [conditions, insertions, Entries.ofList_append, ihSet, ihOther, Conditions.merge, Entries.putAll_ofList]

theorem nodup_keys_conditions (a : Assembly) : a.conditions.keys.Nodup := by
  rw [conditions_eq_ofList]
  exact Entries.nodup_keys_ofList a.insertions

theorem insertions_ofList (cs : List (Subject × Value)) : (ofList cs).insertions = cs := by
  have hfold : ∀ a : Assembly, (cs.foldl (fun set c => set.insert c.1 c.2) a).insertions = a.insertions ++ cs := by
    induction cs with
    | nil => simp
    | cons c rest ih => simp [ih, insertions]
  exact hfold empty

theorem conditions_ofList_of_nodup {cs : Conditions} (hkeys : cs.keys.Nodup) : (ofList cs).conditions = cs := by
  rw [conditions_eq_ofList, insertions_ofList, Entries.ofList_of_nodup hkeys]

end Assembly

namespace Conditions

variable {cs ds es : Conditions}

theorem merge_assoc (hkeys : ds.keys.Nodup) : (cs.merge ds).merge es = cs.merge (ds.merge es) := by
  have hds : Entries.ofList ds = ds := Entries.ofList_of_nodup hkeys
  calc (cs.merge ds).merge es = cs.putAll (ds ++ es) := (Entries.putAll_append cs ds es).symm
    _ = cs.putAll (Entries.ofList (ds ++ es)) := (Entries.putAll_ofList cs (ds ++ es)).symm
    _ = cs.merge (ds.merge es) := by rw [Entries.ofList_append, hds, merge, merge]

theorem merge_self (hkeys : cs.keys.Nodup) : cs.merge cs = cs :=
  Entries.putAll_of_get? fun _ hc => Entries.get?_of_mem hkeys hc

theorem merge_nil : cs.merge [] = cs := rfl

theorem nil_merge (hkeys : cs.keys.Nodup) : merge [] cs = cs := Entries.ofList_of_nodup hkeys

end Conditions

namespace Assembly

/-- In a set of conditions every subject has the place of its first condition and the value of its last, however the set
was put together. A plain field and the operators on it are subjects of their own. Merging is associative and idempotent,
and the empty set is neutral. Every list of conditions with distinct subjects is such a set. -/
theorem first_place_last_value :
    (∀ a : Assembly,
      a.conditions.keys.Nodup ∧
      a.conditions = (Entries.keys a.insertions).eraseDups.filterMap
        (fun subject => (Entries.last? subject a.insertions).map fun v => (subject, v)) ∧
      ∀ subject, a.conditions.get? subject = Entries.last? subject a.insertions) ∧
    (∀ (a : Assembly) (field : String) (c d : Comparator) (v w : Value),
      ((a.insert (.field field) v).insert (.operator ⟨field, c⟩) w).conditions.get? (.field field) = some v ∧
      ((a.insert (.operator ⟨field, c⟩) v).insert (.operator ⟨field, d⟩) w).conditions.get? (.operator ⟨field, c⟩) =
        some (if d = c then w else v)) ∧
    (∀ a b c : Assembly,
      ((a.merge b).merge c).conditions = (a.merge (b.merge c)).conditions ∧
      (a.merge a).conditions = a.conditions ∧
      (a.merge empty).conditions = a.conditions ∧ (empty.merge a).conditions = a.conditions) ∧
    (∀ cs : Conditions, cs.keys.Nodup ↔ ∃ a : Assembly, a.conditions = cs) := by
  refine ⟨fun a => ⟨a.nodup_keys_conditions, ?_, fun subject => ?_⟩, fun a field c d v w => ⟨?_, ?_⟩,
    fun a b c => ⟨?_, ?_, ?_, ?_⟩, fun cs => ⟨fun hkeys => ?_, ?_⟩⟩
  · rw [conditions_eq_ofList, Entries.ofList_eq_filterMap]
  · rw [conditions_eq_ofList, Entries.get?_ofList]
  · simp [conditions, Entries.get?_put]
  · by_cases hsame : d = c <;> simp [conditions, Entries.get?_put, hsame]
  · exact Conditions.merge_assoc b.nodup_keys_conditions
  · exact Conditions.merge_self a.nodup_keys_conditions
  · exact Conditions.merge_nil
  · exact Conditions.nil_merge a.nodup_keys_conditions
  · exact ⟨ofList cs, conditions_ofList_of_nodup hkeys⟩
  · rintro ⟨a, rfl⟩
    exact a.nodup_keys_conditions

/-- A plain field, an operator on it, the field again and then a set that repeats both. -/
example :
    ((((empty.insert (.field "age") (.integer 1)).insert (.operator ⟨"age", .known .below⟩) (.integer 9)).merge
      ((empty.insert (.operator ⟨"age", .known .below⟩) (.integer 8)).insert (.field "name") .null)).insert
      (.field "age") (.integer 2)).conditions =
    [(.field "age", .integer 2), (.operator ⟨"age", .known .below⟩, .integer 8), (.field "name", .null)] := by
  rfl

end Assembly

end DocQuery
