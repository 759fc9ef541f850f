import DocQuery.Proofs.Calendar.ReadBack
import DocQuery.Proofs.Entries
import DocQuery.Value.Generic

/-!
# Values that tell their own kind

Without a declared type a value is stored by its kind, and symbols and dates lose theirs: they come back as texts. The
values that come back as they were are built from the kinds that the store has too, from store values that have no
native counterpart, and from times that it keeps to the millisecond.
-/

namespace DocQuery

/-- A store value without a native counterpart. -/
def StoreValue.isForeign : StoreValue → Bool
  | .objectId _ | .regex _ _ | .javascript _ | .scopedJavascript _ _ | .timestamp _ _ | .binary _ _ | .decimal128 _
  | .minKey | .maxKey => true
  | _ => false

theorem Value.ofStored_of_isForeign {v : StoreValue} (hforeign : v.isForeign = true) : ofStored v = .raw v := by
  cases v <;> first | rfl | cases hforeign

/-- The values whose stored form tells their kind. -/
inductive Value.SelfDescribing : Value → Prop where
  | null : SelfDescribing .null
  | string (s : String) : SelfDescribing (.string s)
  | integer (n : Int64) : SelfDescribing (.integer n)
  | float (x : Double) : SelfDescribing (.float x)
  | boolean (b : Bool) : SelfDescribing (.boolean b)
  | time {t : Time} (hwhole : t.IsWhole) : SelfDescribing (.time t)
  | array {items : List Value} (hitems : ∀ v ∈ items, SelfDescribing v) : SelfDescribing (.array items)
  | map {entries : Entries String Value} (hsorted : entries.IsSorted) (hentries : ∀ e ∈ entries, SelfDescribing e.2) :
    SelfDescribing (.map entries)
  | raw {v : StoreValue} (hforeign : v.isForeign = true) : SelfDescribing (.raw v)

/-- Taking the values of a map there and back gives the map, if it does so value by value. -/
theorem Entries.sorted_mapValues {α β : Type} {f : α → β} {g : β → α} {entries : Entries String α}
    (hsorted : entries.IsSorted) (hback : ∀ e ∈ entries, g (f e.2) = e.2) :
    Entries.sorted ((entries.mapValues f).mapValues g) = entries := by
  have hentries : (entries.mapValues f).mapValues g = entries := map_map_back fun e he => Prod.ext rfl (hback e he)
  rw [hentries, sorted_of_isSorted hsorted]

theorem Value.ofStored_toStored {v : Value} (hself : v.SelfDescribing) : ofStored v.toStored = v := by
  induction hself with
  | null | string s | integer n | float x | boolean b => rfl
  | time hwhole => exact congrArg Value.time (Time.ofMillis_toMillis hwhole)
  | array _ ih =>
    simp only [toStored, ofStored, toStoredItems_eq_map, ofStoredItems_eq_map]
    rw [Entries.map_map_back ih]
  | map hsorted _ ih =>
    simp only [toStored, ofStored, toStoredEntries_eq_mapValues, ofStoredFields_eq_mapValues]
    exact congrArg Value.map (Entries.sorted_mapValues hsorted ih)
  | raw hforeign => exact ofStored_of_isForeign hforeign

end DocQuery
