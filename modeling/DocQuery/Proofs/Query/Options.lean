import Mathlib.Algebra.Group.Nat.Defs
import DocQuery.Collection.Retrieval
import DocQuery.Proofs.Outcomes
import DocQuery.Query.Compile

/-!
# Compiled options are understood

The options document that compiling writes is one that a collection decodes, whatever the clauses: no
count, field name or direction in it is malformed, and no option has a name that the collection lacks.
What it decodes to is what the clauses asked for, with stored names in the place of logical ones and with
counts past the signed range capped. A capped count still skips or gives all documents of any collection
that has fewer of them than the cap.
-/

namespace DocQuery

namespace Query

/-- A count as far as a store takes it. -/
def cappedCount (n : Nat) : Nat := min n (2 ^ 63 - 1)

/-- A field to sort by under its stored name. -/
def resolvedKey (ps : Properties) (key : SortKey) : SortKey := ⟨ps.resolve key.field, key.direction⟩

/-- What the clauses of a query ask of the documents found. -/
def retrieval (ps : Properties) (c : Criteria) (keys : List SortKey) : Retrieval where
  skip := cappedCount (c.offset.getD 0)
  limit := cappedCount (c.limit.getD 0)
  fields := c.select
  sort := keys.map (resolvedKey ps)

theorem compile_eq_ok {ps : Properties} {c : Criteria} {q : Query} (hcompile : compile ps c = .ok q) :
    ∃ selector keys, selectorOf ps (c.conditions.getD []) = .ok selector ∧ SortTerm.allSortKeys c.order = .ok keys ∧
      q = ⟨selector, optionsOf ps c keys⟩ := by
  obtain ⟨selector, hselector, hrest⟩ := bind_eq_ok hcompile
  obtain ⟨keys, hkeys, hdone⟩ := bind_eq_ok hrest
  cases hdone
  exact ⟨selector, keys, hselector, hkeys, rfl⟩

end Query

namespace Retrieval

open Query

private theorem toInt_countValue (n : Nat) : (Int64.ofNat (cappedCount n)).toInt = cappedCount n := by
  apply Int64.toInt_ofNat_of_lt
  rw [cappedCount]
  omega

private theorem readCount_countValue (option : String) (n : Nat) :
    readCount option (countValue n) = .ok (cappedCount n) := by
  have hvalue : (countValue n).integer? = some (Int64.ofNat (cappedCount n)) := rfl
  rw [readCount, hvalue]
  change (if 0 ≤ (Int64.ofNat (cappedCount n)).toInt then Except.ok (Int64.ofNat (cappedCount n)).toInt.toNat
    else _) = _
  rw [toInt_countValue, if_pos (Int.natCast_nonneg _), Int.toNat_natCast]

private theorem readFields_strings (names : List String) :
    readFields (.array (names.map .string)) = .ok names := by
  rw [readFields, List.mapM_map]
  exact (List.mapM_pure (f := id)).trans (congrArg Except.ok (List.map_id names))

theorem ofText?_text (direction : Direction) : Direction.ofText? direction.text = some direction := by
  cases direction <;> decide +kernel

private theorem sortKey?_sortValue (ps : Properties) (key : SortKey) :
    sortKey? (sortValue ps key) = some (resolvedKey ps key) := by
  change (Direction.ofText? key.direction.text).map _ = _
  rw [ofText?_text]
  rfl

private theorem readSort_sortValues (ps : Properties) (keys : List SortKey) :
    readSort (.array (keys.map (sortValue ps))) = .ok (keys.map (resolvedKey ps)) := by
  have hread : (keys.map (sortValue ps)).mapM sortKey? = some (keys.map (resolvedKey ps)) := by
    have hkey : sortKey? ∘ sortValue ps = fun key => pure (resolvedKey ps key) := funext (sortKey?_sortValue ps)
    rw [List.mapM_map, hkey, List.mapM_pure]
    rfl
  rw [readSort, StoreValue.items?, Option.bind_some, hread]

/-! ### One option at a time -/

private theorem set_skip (r : Retrieval) (n : Nat) :
    r.set QueryOption.skip.name (countValue n) = .ok { r with skip := cappedCount n } := by
  rw [set, QueryOption.ofName?_name]
  exact congrArg (Except.map _) (readCount_countValue _ n)

private theorem set_limit (r : Retrieval) (n : Nat) :
    r.set QueryOption.limit.name (countValue n) = .ok { r with limit := cappedCount n } := by
  rw [set, QueryOption.ofName?_name]
  exact congrArg (Except.map _) (readCount_countValue _ n)

theorem set_fields (r : Retrieval) (names : List String) :
    r.set QueryOption.fields.name (.array (names.map .string)) = .ok { r with fields := names } := by
  rw [set, QueryOption.ofName?_name]
  exact congrArg (Except.map _) (readFields_strings names)

private theorem set_sort (r : Retrieval) (ps : Properties) (keys : List SortKey) :
    r.set QueryOption.sort.name (.array (keys.map (sortValue ps))) =
      .ok { r with sort := keys.map (resolvedKey ps) } := by
  rw [set, QueryOption.ofName?_name]
  exact congrArg (Except.map _) (readSort_sortValues ps keys)

/-- Takes the options of a document into account, one after the other. -/
def setAll (r : Retrieval) (options : Document) : Except OptionsError Retrieval :=
  options.foldlM (fun r option => r.set option.1 option.2) r

theorem ofOptions_eq_setAll (options : Document) : ofOptions options = everything.setAll options := rfl

theorem setAll_append_eq_bind (r : Retrieval) (options rest : Document) :
    r.setAll (options ++ rest) = (r.setAll options).bind fun r' => r'.setAll rest := List.foldlM_append

private theorem setAll_append {r r' : Retrieval} {options : Document} (rest : Document) (h : r.setAll options = .ok r') :
    r.setAll (options ++ rest) = r'.setAll rest := by
  rw [setAll_append_eq_bind, h]
  rfl

private theorem setAll_single {r r' : Retrieval} {option : String} {v : StoreValue}
    (h : r.set option v = .ok r') : r.setAll [(option, v)] = .ok r' := by
  rw [setAll, List.foldlM_cons, h]
  rfl

private theorem setAll_skip (r : Retrieval) (offset : Option Nat) (hskip : r.skip = 0) :
    r.setAll (offset.map fun n => (QueryOption.skip.name, countValue n)).toList =
      .ok { r with skip := cappedCount (offset.getD 0) } := by
  cases offset with
  | none => exact congrArg (fun n => Except.ok { r with skip := n }) hskip
  | some n => exact setAll_single (set_skip r n)

private theorem setAll_limit (r : Retrieval) (limit : Option Nat) (hlimit : r.limit = 0) :
    r.setAll (limit.map fun n => (QueryOption.limit.name, countValue n)).toList =
      .ok { r with limit := cappedCount (limit.getD 0) } := by
  cases limit with
  | none => exact congrArg (fun n => Except.ok { r with limit := n }) hlimit
  | some n => exact setAll_single (set_limit r n)

private theorem setAll_fields (r : Retrieval) (names : List String) (hfields : r.fields = []) :
    r.setAll (if names.isEmpty then [] else [(QueryOption.fields.name, .array (names.map .string))]) =
      .ok { r with fields := names } := by
  cases names with
  | nil => exact congrArg (fun names => Except.ok { r with fields := names }) hfields
  | cons name rest => exact setAll_single (set_fields r (name :: rest))

private theorem setAll_sort (r : Retrieval) (ps : Properties) (keys : List SortKey) (hsort : r.sort = []) :
    r.setAll (if keys.isEmpty then [] else [(QueryOption.sort.name, .array (keys.map (sortValue ps)))]) =
      .ok { r with sort := keys.map (resolvedKey ps) } := by
  cases keys with
  | nil => exact congrArg (fun keys => Except.ok { r with sort := keys }) hsort
  | cons key rest => exact setAll_single (set_sort r ps (key :: rest))

/-- Decoding takes compiled options back to what the clauses ask for. -/
theorem ofOptions_optionsOf (ps : Properties) (c : Criteria) (keys : List SortKey) :
    ofOptions (optionsOf ps c keys) = .ok (retrieval ps c keys) := by
  change everything.setAll (optionsOf ps c keys) = _
  rw [optionsOf, List.append_assoc, List.append_assoc, setAll_append _ (setAll_skip everything c.offset rfl),
    setAll_append _ (setAll_limit _ c.limit rfl), setAll_append _ (setAll_fields _ c.select rfl),
    setAll_sort _ ps keys rfl]
  rfl

/-! ### Capped counts -/

/-- Capping the counts skips and gives the same documents of a list shorter than the cap allows. -/
theorem slice_cappedCount (skip limit : Nat) {ds : List Document} (hlength : ds.length < 2 ^ 63) :
    slice (cappedCount skip) (cappedCount limit) ds = slice skip limit ds := by
  have hdrop : ds.drop (cappedCount skip) = ds.drop skip := by
    by_cases hskip : skip < 2 ^ 63
    · rw [cappedCount, Nat.min_eq_left (by omega)]
    · rw [cappedCount, Nat.min_eq_right (by omega), List.drop_eq_nil_of_le (by omega),
        List.drop_eq_nil_of_le (by omega)]
  have htake : (ds.drop skip).take (cappedCount limit) = (ds.drop skip).take limit := by
    by_cases hlimit : limit < 2 ^ 63
    · rw [cappedCount, Nat.min_eq_left (by omega)]
    · have hrest : (ds.drop skip).length ≤ 2 ^ 63 - 1 := by
        rw [List.length_drop]
        omega
      rw [cappedCount, Nat.min_eq_right (by omega), List.take_of_length_le hrest,
        List.take_of_length_le (by omega)]
  have hzero : cappedCount limit = 0 ↔ limit = 0 := by
    rw [cappedCount]
    omega
  rw [slice, slice, hdrop, htake]
  simp only [hzero]

end Retrieval

end DocQuery
