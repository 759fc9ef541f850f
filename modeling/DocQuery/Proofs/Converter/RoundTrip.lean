import DocQuery.Converter.Load
import DocQuery.Converter.Store
import DocQuery.Proofs.Registry.Lookup
import DocQuery.Proofs.Value.Generic

/-!
# Typed values come back

A value that a property of its type can have is stored in a form from which the same value is read: nothing is
coerced, cut off or taken for a value of another kind. Dates go through their text and times through their
milliseconds; the items of an array and the values of a map come back one by one, by induction on the value, and a map
keeps its order. This holds of the converter that a type asks for, and so of the one that a registry finds for it.
-/

namespace DocQuery

namespace PropertyType

/-- The values that a property of a type has. Every property may be without a value. -/
inductive WellTyped : PropertyType → Value → Prop where
  | null (type : PropertyType) : WellTyped type .null
  | string (s : String) : WellTyped .string (.string s)
  | integer (n : Int64) : WellTyped .integer (.integer n)
  | float (x : Double) : WellTyped .float (.float x)
  | boolean (b : Bool) : WellTyped .boolean (.boolean b)
  | symbol (s : String) : WellTyped .symbol (.symbol s)
  | date (d : Date) : WellTyped .date (.date d)
  | time {t : Time} (hwhole : t.IsWhole) : WellTyped .time (.time t)
  | array {inner : PropertyType} {items : List Value} (hitems : ∀ v ∈ items, WellTyped inner v) :
    WellTyped (.array inner) (.array items)
  | map {inner : PropertyType} {entries : Entries String Value} (hsorted : entries.IsSorted)
    (hentries : ∀ e ∈ entries, WellTyped inner e.2) : WellTyped (.map inner) (.map entries)
  | any {v : Value} (hself : v.SelfDescribing) : WellTyped .any v
  | custom {v : Value} (name : String) (hself : v.SelfDescribing) : WellTyped (.custom name) v

theorem fromStore_toStore {type : PropertyType} {v : Value} (hv : type.WellTyped v) :
    type.converter.fromStore (type.converter.toStore v) = v := by
  induction hv with
  | null type => cases type <;> rfl
  | string | integer | float | boolean | symbol => rfl
  | date d =>
    simp only [converter, Converter.toStore, Converter.storeDate, Converter.fromStore, Converter.loadDate, Date.text,
      String.toList_ofList, Date.ofText?_chars]
  | time hwhole => exact congrArg Value.time (Time.ofMillis_toMillis hwhole)
  | array _ ih =>
    simp only [converter, Converter.toStore, Converter.fromStore]
    rw [Entries.map_map_back ih]
  | map hsorted _ ih =>
    simp only [converter, Converter.toStore, Converter.fromStore]
    exact congrArg Value.map (Entries.sorted_mapValues hsorted ih)
  | any hself => exact Value.ofStored_toStored hself
  | custom _ hself => exact Value.ofStored_toStored hself

end PropertyType

namespace Registry

/-- A value that is well typed for a type comes back as it was from the converter of the type, and from the one that a
registry finds or makes for it after any look-ups. -/
theorem typed_values_come_back {type : PropertyType} {v : Value} (hv : type.WellTyped v) :
    type.converter.fromStore (type.converter.toStore v) = v ∧
    ∀ (earlier : List PropertyType) (found : Registered), ((initial.afterLookUps earlier).lookUp type).1 = found →
      found.converter.fromStore (found.converter.toStore v) = v := by
  refine ⟨PropertyType.fromStore_toStore hv, ?_⟩
  rintro earlier _ rfl
  have hsound := sound_initial.afterLookUps earlier
  rw [(hsound.lookUp type).1]
  exact PropertyType.fromStore_toStore hv

/-! ### Dates outside of four digits, by name -/

/-- The day before the first one of year 0. -/
def beforeYearZero : Date := ⟨-1, 12, 31, by decide, by decide, by decide⟩

def afterFourDigits : Date := ⟨10000, 4, 5, by decide, by decide, by decide⟩

/-- Lists of dates under names, one of which holds a missing date. -/
def namedDates : Value :=
  .map [("after", .array [.date afterFourDigits, .null]), ("before", .array [.date beforeYearZero])]

theorem wellTyped_namedDates : PropertyType.WellTyped (.map (.array .date)) namedDates := by
  refine .map (by decide +kernel) fun e he => ?_
  simp only [List.mem_cons, List.not_mem_nil, or_false] at he
  rcases he with rfl | rfl
  · refine .array fun v hv => ?_
    simp only [List.mem_cons, List.not_mem_nil, or_false] at hv
    rcases hv with rfl | rfl
    · exact .date afterFourDigits
    · exact .null .date
  · refine .array fun v hv => ?_
    rw [List.mem_singleton.mp hv]
    exact .date beforeYearZero

theorem namedDates_come_back :
    let found := ((initial.afterLookUps [.array .date, .custom "Money"]).lookUp (.map (.array .date))).1
    found.converter.toStore namedDates = .document [("after", .array [.string "+10000-04-05", .null]),
        ("before", .array [.string "-0001-12-31"])] ∧
      found.converter.fromStore (found.converter.toStore namedDates) = namedDates := by
  refine ⟨?_, (typed_values_come_back wellTyped_namedDates).2 _ _ rfl⟩
  rfl

end Registry

end DocQuery
