import DocQuery.Converter.Load
import DocQuery.Converter.Store
import DocQuery.Proofs.Calendar.Trimming
import DocQuery.Proofs.Value.Resaving

/-!
# Saving again what was saved

What a property stores of a value is stored again as it was when it is read back, though the value itself may not come
back: a coerced value is stored as one of the property's own, and one that is not coerced is read and stored by its kind.
A text that a property of dates or times stores as it is reads as nothing when it is trimmed, so it reads as nothing when
it is not. The items of arrays and the values of maps are saved again one by one.
-/

namespace DocQuery.Converter

open Text

variable {v : Value}

/-- What a stored value becomes when it is read and saved again. -/
def resave (c : Converter) (b : StoreValue) : StoreValue := c.toStore (c.fromStore b)

theorem resave_array (inner : Converter) (items : List StoreValue) :
    resave (.array inner) (.array items) = .array (items.map inner.resave) := by
  simp only [resave, toStore, fromStore, List.map_map]
  rfl

/-- The fields of a map are saved again one by one, in the order of their names. -/
theorem resave_map (inner : Converter) (fields : Document) :
    resave (.map inner) (.document fields) = .document (Entries.sorted (fields.mapValues inner.resave)) := by
  simp only [resave, toStore, fromStore, Entries.mapValues_sorted, Entries.mapValues_mapValues]
  rfl

/-- No symbol or date is converted to a number, and no symbol to a date or a time: these are stored as texts, which are
read as numbers, dates or times when they are stored again. -/
def Unambiguous : Converter → Value → Prop
  | .integer, .symbol _ | .integer, .date _ | .float, .symbol _ | .float, .date _ => False
  | .date, .symbol _ | .time, .symbol _ => False
  | .array inner, .array items => ∀ item ∈ items, inner.Unambiguous item
  | .map inner, .map entries => ∀ e ∈ entries, inner.Unambiguous e.2
  | _, _ => True

/-- The times of a value that a conversion stores as times, in order. -/
def storedTimes : Converter → Value → List Time
  | .string, .time _ | .date, .time _ | .boolean, _ => []
  | .array inner, .array items => items.flatMap fun item => inner.storedTimes item
  | .map inner, .map entries => entries.flatMap fun e => inner.storedTimes e.2
  | _, v => v.times

/-! ### Scalars -/

theorem resave_storeString (hv : v.Native) :
    resave .string (storeString v) = storeString v ↔ ∀ t ∈ storedTimes .string v, ¬ t.IsBeyond := by
  have hgeneric := Value.toStored_ofStored_toStored_iff hv
  cases hv with
  | null | array | map => exact hgeneric
  | _ => simp [resave, fromStore, toStore, loadString, storeString, storedTimes, Value.times]

theorem resave_storeInteger (hv : v.Native) (hclear : Unambiguous .integer v) :
    resave .integer (storeInteger v) = storeInteger v ↔ ∀ t ∈ storedTimes .integer v, ¬ t.IsBeyond := by
  have hgeneric := Value.toStored_ofStored_toStored_iff hv
  cases hv with
  | string s =>
    cases hread : readInteger s <;>
      simp [resave, fromStore, toStore, loadInteger, storeInteger, storedTimes, Value.times, Value.ofStored, hread]
  | float x => simp [resave, fromStore, toStore, loadInteger, storeInteger, storedTimes, Value.times]
  | symbol | date => exact hclear.elim
  | _ => exact hgeneric

theorem resave_storeFloat (hv : v.Native) (hclear : Unambiguous .float v) :
    resave .float (storeFloat v) = storeFloat v ↔ ∀ t ∈ storedTimes .float v, ¬ t.IsBeyond := by
  have hgeneric := Value.toStored_ofStored_toStored_iff hv
  cases hv with
  | string s =>
    cases hread : readFloat s <;>
      simp [resave, fromStore, toStore, loadFloat, storeFloat, storedTimes, Value.times, Value.ofStored, hread]
  | integer n => simp [resave, fromStore, toStore, loadFloat, storeFloat, storedTimes, Value.times]
  | symbol | date => exact hclear.elim
  | _ => exact hgeneric

theorem resave_storeBoolean (v : Value) : resave .boolean (storeBoolean v) = storeBoolean v := by
  rw [storeBoolean]
  cases truth? v <;> rfl

theorem resave_storeSymbol (hv : v.Native) :
    resave .symbol (storeSymbol v) = storeSymbol v ↔ ∀ t ∈ storedTimes .symbol v, ¬ t.IsBeyond := by
  have hgeneric := Value.toStored_ofStored_toStored_iff hv
  cases hv <;> exact hgeneric

theorem resave_date_text (d : Date) : resave .date (.string d.text) = .string d.text := by
  simp [resave, fromStore, toStore, loadDate, storeDate, Date.text, Date.ofText?_chars]

theorem resave_storeDate_string (s : String) : resave .date (storeDate (.string s)) = storeDate (.string s) := by
  cases hread : Date.ofText? (trim s.toList) with
  | some d => simp only [storeDate, hread, resave_date_text]
  | none =>
    have huntrimmed : Date.ofText? s.toList = none := Option.eq_none_iff_forall_ne_some.mpr fun d hd => by
      rw [Date.ofText?_trim hd] at hread
      cases hread
    simp only [resave, fromStore, toStore, loadDate, storeDate, hread, huntrimmed]

theorem resave_storeDate (hv : v.Native) (hclear : Unambiguous .date v) :
    resave .date (storeDate v) = storeDate v ↔ ∀ t ∈ storedTimes .date v, ¬ t.IsBeyond := by
  have hgeneric := Value.toStored_ofStored_toStored_iff hv
  cases hv with
  | string s => simp [resave_storeDate_string, storedTimes, Value.times]
  | date d => simp [resave_date_text, storeDate, storedTimes, Value.times]
  | time t => simp [resave_date_text, storeDate, storedTimes]
  | symbol => exact hclear.elim
  | _ => exact hgeneric

theorem resave_dateTime {t : Time} (ht : ¬ t.IsBeyond) : resave .time (.dateTime t.toMillis) = .dateTime t.toMillis :=
  congrArg StoreValue.dateTime (Time.toMillis_ofMillis_toMillis_iff.mpr ht)

theorem resave_storeTime_string (s : String) : resave .time (storeTime (.string s)) = storeTime (.string s) := by
  cases hread : Time.ofText? (trim s.toList) with
  | some t => simp only [storeTime, hread, resave_dateTime (Time.not_isBeyond_of_ofText? hread)]
  | none =>
    have huntrimmed : Time.ofText? s.toList = none := Option.eq_none_iff_forall_ne_some.mpr fun t ht => by
      rw [Time.trim_of_ofText? ht, ht] at hread
      cases hread
    simp only [resave, fromStore, toStore, loadTime, storeTime, hread, huntrimmed]

theorem resave_storeTime (hv : v.Native) (hclear : Unambiguous .time v) :
    resave .time (storeTime v) = storeTime v ↔ ∀ t ∈ storedTimes .time v, ¬ t.IsBeyond := by
  have hgeneric := Value.toStored_ofStored_toStored_iff hv
  cases hv with
  | string s => simp [resave_storeTime_string, storedTimes, Value.times]
  | date d => simp [storeTime, resave_dateTime (Time.not_isBeyond_ofDate d), storedTimes, Value.times]
  | symbol => exact hclear.elim
  | _ => exact hgeneric

/-! ### All conversions -/

/-- What is stored of a value is stored again as it was, if no time that is stored as a time is past the calendar. -/
theorem resave_toStore_iff (c : Converter) (hv : v.Native) (hclear : c.Unambiguous v) :
    c.resave (c.toStore v) = c.toStore v ↔ ∀ t ∈ c.storedTimes v, ¬ t.IsBeyond := by
  induction c generalizing v with
  | string => exact resave_storeString hv
  | integer => exact resave_storeInteger hv hclear
  | float => exact resave_storeFloat hv hclear
  | boolean => simp [toStore, resave_storeBoolean, storedTimes]
  | symbol => exact resave_storeSymbol hv
  | date => exact resave_storeDate hv hclear
  | time => exact resave_storeTime hv hclear
  | generic | named => exact Value.toStored_ofStored_toStored_iff hv
  -- A value of another shape than an array or a map goes by its kind, both when it is stored and when it is read.
  | array inner ih =>
    have hgeneric := Value.toStored_ofStored_toStored_iff hv
    cases hv with
    | array hitems =>
      simp only [toStore, resave_array, storedTimes, List.map_map, StoreValue.array.injEq, List.map_inj_left,
        Function.comp_apply, List.forall_mem_flatMap]
      exact forall₂_congr fun item hitem => ih (hitems item hitem) (hclear item hitem)
    | _ => exact hgeneric
  | map inner ih =>
    have hgeneric := Value.toStored_ofStored_toStored_iff hv
    cases hv with
    | map hsorted hentries =>
      simp only [toStore, resave_map, storedTimes, Entries.mapValues_mapValues, StoreValue.document.injEq,
        List.forall_mem_flatMap]
      rw [Entries.sorted_of_isSorted (hsorted.mapValues _), Entries.mapValues_eq_mapValues_iff]
      exact forall₂_congr fun e he => ih (hentries e he) (hclear e he)
    | _ => exact hgeneric

end DocQuery.Converter
