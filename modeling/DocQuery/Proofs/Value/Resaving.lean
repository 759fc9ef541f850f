import DocQuery.Proofs.Calendar.ReadBack
import DocQuery.Proofs.Entries
import DocQuery.Value.Generic

/-!
# Values that are stored again as they were

The generic conversion may read a stored value as one of another kind: a symbol comes back as a text, and so does a date.
It stores that value as it was stored before, though. What comes back may only be stored differently where a time does,
and that takes a leap second past the end of the calendar.
-/

namespace DocQuery.Value

/-- A value without store values in it, whose maps are in order. -/
inductive Native : Value → Prop where
  | null : Native .null
  | string (s : String) : Native (.string s)
  | integer (n : Int64) : Native (.integer n)
  | float (x : Double) : Native (.float x)
  | boolean (b : Bool) : Native (.boolean b)
  | symbol (s : String) : Native (.symbol s)
  | date (d : Date) : Native (.date d)
  | time (t : Time) : Native (.time t)
  | array {items : List Value} (hitems : ∀ v ∈ items, Native v) : Native (.array items)
  | map {entries : Entries String Value} (hsorted : entries.IsSorted) (hentries : ∀ e ∈ entries, Native e.2) :
    Native (.map entries)

mutual

/-- The times in a value, in order. -/
def times : Value → List Time
  | .time t => [t]
  | .array items => timesOfItems items
  | .map entries => timesOfEntries entries
  | _ => []
termination_by structural v => v

def timesOfItems : List Value → List Time
  | [] => []
  | v :: rest => times v ++ timesOfItems rest
termination_by structural vs => vs

def timesOfEntries : List (String × Value) → List Time
  | [] => []
  | (_, v) :: rest => times v ++ timesOfEntries rest
termination_by structural es => es

end

@[simp] theorem timesOfItems_eq_flatMap (items : List Value) : timesOfItems items = items.flatMap times := by
  induction items with
  | nil => rfl
  | cons v rest ih => rw [timesOfItems, ih, List.flatMap_cons]

@[simp] theorem timesOfEntries_eq_flatMap (entries : List (String × Value)) :
    timesOfEntries entries = entries.flatMap fun e => e.2.times := by
  induction entries with
  | nil => rfl
  | cons e rest ih => rw [timesOfEntries, ih, List.flatMap_cons]

/-- A value is stored again as it was, if none of its times is past the calendar. -/
theorem toStored_ofStored_toStored_iff {v : Value} (hv : v.Native) :
    (ofStored v.toStored).toStored = v.toStored ↔ ∀ t ∈ v.times, ¬ t.IsBeyond := by
  induction hv with
  | null | string | integer | float | boolean | symbol | date => simp [times, toStored, ofStored]
  | time t => simpa [times, toStored, ofStored] using Time.toMillis_ofMillis_toMillis_iff
  | array _ ih =>
    simp only [times, toStored, ofStored, timesOfItems_eq_flatMap, toStoredItems_eq_map, ofStoredItems_eq_map,
      List.map_map, StoreValue.array.injEq, List.map_inj_left, Function.comp_apply, List.forall_mem_flatMap]
    exact forall₂_congr ih
  | map hsorted _ ih =>
    simp only [times, toStored, ofStored, timesOfEntries_eq_flatMap, toStoredEntries_eq_mapValues,
      ofStoredFields_eq_mapValues, Entries.mapValues_mapValues, StoreValue.document.injEq, List.forall_mem_flatMap]
    rw [Entries.sorted_of_isSorted (hsorted.mapValues _), Entries.mapValues_mapValues,
      Entries.mapValues_eq_mapValues_iff]
    exact forall₂_congr ih

end DocQuery.Value
