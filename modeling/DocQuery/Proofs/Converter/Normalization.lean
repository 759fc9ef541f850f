import DocQuery.Proofs.Converter.Resaving
import DocQuery.Proofs.StoreValue.Parts
import DocQuery.Proofs.Value.Generic

/-!
# The normal form of store values

Read without a declared type and stored again, a store value comes out in a normal form: one width of integers, one kind
of text, one kind of nothing, points in time that the calendar has, and documents in the order of their names. The form
of a value with parts is made of the forms of its parts. What has no native counterpart is carried along as it is, and
so is the scope of a script in it. A normal form has itself for its form.
-/

namespace DocQuery

namespace StoreValue

/-- The milliseconds at which the calendar starts. -/
def firstMillis : Int := firstSecond * 1000

/-- The last milliseconds of the calendar. -/
def lastMillis : Int := lastSecond * 1000 + 999

/-- Whether a value has no parts to normalize and is a normal form. -/
def isSettled : StoreValue → Bool
  | .null | .boolean _ | .int64 _ | .double _ | .string _ => true
  | v => v.isForeign

/-- The second value is the normal form of the first. The parts of an array are given in pairs, and so are those of a
document, whose normal form has its fields in the order of their names. -/
inductive Normalizes : StoreValue → StoreValue → Prop where
  | settled {v : StoreValue} (hsettled : v.isSettled = true) : Normalizes v v
  | undefined : Normalizes .undefined .null
  | symbol (s : String) : Normalizes (.symbol s) (.string s)
  | integer {n : Int32} {m : Int64} (hvalue : m.toInt = n.toInt) : Normalizes (.int32 n) (.int64 m)
  | dateTime {n m : Int64} (hclamped : m.toInt = max firstMillis (min n.toInt lastMillis)) :
    Normalizes (.dateTime n) (.dateTime m)
  | array {pairs : List (StoreValue × StoreValue)} (hitems : ∀ p ∈ pairs, Normalizes p.1 p.2) :
    Normalizes (.array (pairs.map Prod.fst)) (.array (pairs.map Prod.snd))
  | document {pairs : Entries String (StoreValue × StoreValue)} {fields : Document}
    (hfields : ∀ e ∈ pairs, Normalizes e.2.1 e.2.2) (hsorted : fields.IsSorted)
    (hperm : fields.Perm (pairs.mapValues Prod.snd)) :
    Normalizes (.document (pairs.mapValues Prod.fst)) (.document fields)

variable {v w : StoreValue}

/-! ### The generic conversion there and back -/

theorem resave_of_isSettled (hsettled : v.isSettled = true) : Converter.generic.resave v = v := by
  cases v <;> first | rfl | cases hsettled

theorem resave_items (items : List StoreValue) :
    Converter.generic.resave (.array items) = .array (items.map Converter.generic.resave) := by
  simp only [Converter.resave, Converter.fromStore, Converter.toStore, Value.ofStored, Value.toStored,
    Value.ofStoredItems_eq_map, Value.toStoredItems_eq_map, List.map_map]
  rfl

theorem resave_fields (fields : Document) :
    Converter.generic.resave (.document fields) =
      .document (Entries.sorted (fields.mapValues Converter.generic.resave)) := by
  simp only [Converter.resave, Converter.fromStore, Converter.toStore, Value.ofStored, Value.toStored,
    Value.ofStoredFields_eq_mapValues, Value.toStoredEntries_eq_mapValues, Entries.mapValues_sorted,
    Entries.mapValues_mapValues]
  rfl

/-- A value is stored again in its normal form. -/
theorem Normalizes.eq_resave (hnormal : Normalizes v w) : w = Converter.generic.resave v := by
  induction hnormal with
  | settled hsettled => exact (resave_of_isSettled hsettled).symm
  | undefined | symbol => rfl
  | @integer n m hvalue =>
    refine congrArg StoreValue.int64 (Int64.toInt_inj.mp ?_)
    rw [hvalue, Int32.toInt_toInt64]
  | dateTime hclamped =>
    refine congrArg StoreValue.dateTime (Int64.toInt_inj.mp ?_)
    rw [hclamped, Time.toInt_toMillis_ofMillis, firstMillis, lastMillis]
    omega
  | array hitems ih =>
    rw [resave_items, List.map_map]
    exact congrArg StoreValue.array (List.map_congr_left ih)
  | @document pairs fields hfields hsorted hperm ih =>
    have hforms : (pairs.mapValues Prod.fst).mapValues Converter.generic.resave = pairs.mapValues Prod.snd := by
      rw [Entries.mapValues_mapValues, Entries.mapValues_eq_mapValues_iff]
      exact fun e he => (ih e he).symm
    rw [resave_fields, hforms, Entries.sorted_of_perm hsorted hperm.symm]

/-! ### Forms of values with parts -/

theorem normalizes_array {items : List StoreValue} {form : StoreValue → StoreValue}
    (hitems : ∀ item ∈ items, Normalizes item (form item)) : Normalizes (.array items) (.array (items.map form)) := by
  have harray := Normalizes.array (List.forall_mem_map.mpr hitems : ∀ p ∈ items.map fun item => (item, form item), _)
  rwa [Entries.map_map_back fun _ _ => rfl, List.map_map] at harray

theorem normalizes_document {fields : Document} {form : StoreValue → StoreValue} (hkeys : fields.keys.Nodup)
    (hfields : ∀ e ∈ fields, Normalizes e.2 (form e.2)) :
    Normalizes (.document fields) (.document (Entries.sorted (fields.mapValues form))) := by
  let pairs : Entries String (StoreValue × StoreValue) := fields.mapValues fun part => (part, form part)
  have hfirst : pairs.mapValues Prod.fst = fields := Entries.map_map_back fun _ _ => rfl
  have hsecond : pairs.mapValues Prod.snd = fields.mapValues form := Entries.mapValues_mapValues ..
  have hpairs : ∀ e ∈ pairs, Normalizes e.2.1 e.2.2 := List.forall_mem_map.mpr hfields
  have hperm : (Entries.sorted (fields.mapValues form)).Perm (pairs.mapValues Prod.snd) := by
    rw [hsecond]
    exact Entries.sorted_perm (by rwa [Entries.keys_mapValues])
  have hdocument := Normalizes.document hpairs (Entries.isSorted_sorted _) hperm
  rwa [hfirst] at hdocument

/-- Every value has a normal form, if no document in it has a name twice. -/
theorem normalizes_resave (hnames : v.holdsSome repeatsName = false) : Normalizes v (Converter.generic.resave v) := by
  induction v using parts_induction with
  | hparts v ih =>
    obtain ⟨hname, hparts⟩ := holdsSome_eq_false_iff.mp hnames
    have hforms : ∀ part ∈ v.parts, Normalizes part (Converter.generic.resave part) :=
      fun part hpart => ih part hpart (hparts part hpart)
    cases v with
    | array items =>
      rw [resave_items]
      exact normalizes_array hforms
    | document fields =>
      rw [resave_fields]
      refine normalizes_document (by simpa [repeatsName] using hname) fun e he => hforms _ ?_
      exact List.mem_map_of_mem he
    | undefined => exact .undefined
    | symbol s => exact .symbol s
    | int32 n => exact .integer (Int32.toInt_toInt64 n)
    | dateTime n =>
      refine .dateTime ?_
      rw [Time.toInt_toMillis_ofMillis, firstMillis, lastMillis]
      omega
    | _ => exact .settled rfl

/-- A normal form is its own. -/
theorem Normalizes.again (hnormal : Normalizes v w) : Normalizes w w := by
  induction hnormal with
  | settled hsettled => exact .settled hsettled
  | undefined | symbol | integer => exact .settled rfl
  | dateTime hclamped =>
    refine .dateTime ?_
    have hends : firstMillis ≤ lastMillis := by decide
    omega
  | array _ ih =>
    have hforms : ∀ item ∈ _, Normalizes item (id item) := List.forall_mem_map.mpr ih
    have harray := normalizes_array hforms
    rwa [List.map_id] at harray
  | @document pairs fields _ hsorted hperm ih =>
    have hforms : ∀ e ∈ pairs.mapValues Prod.snd, Normalizes e.2 (id e.2) := List.forall_mem_map.mpr ih
    have hparts : ∀ e ∈ fields, Normalizes e.2 (id e.2) := fun e he => hforms e (hperm.mem_iff.mp he)
    have hdocument := normalizes_document hsorted.nodup_keys hparts
    have hsame : Entries.mapValues id fields = fields := List.map_id fields
    rwa [hsame, Entries.sorted_of_isSorted hsorted] at hdocument

/-- The generic conversion there and back gives the normal form of a store value, whatever stands in it, and gives that
again for the normal form. -/
theorem generic_conversion_normalizes (v : StoreValue) (hnames : v.holdsSome repeatsName = false) :
    (∀ w, Normalizes v w ↔ w = (Value.ofStored v).toStored) ∧
    (Value.ofStored (Value.ofStored v).toStored).toStored = (Value.ofStored v).toStored := by
  have hnormal : Normalizes v (Converter.generic.resave v) := normalizes_resave hnames
  refine ⟨fun w => ⟨Normalizes.eq_resave, ?_⟩, hnormal.again.eq_resave.symm⟩
  rintro rfl
  exact hnormal

/-! ### A document with a script -/

/-- The point in time is past the calendar, and the script has a scope of its own. -/
def loggedCall : StoreValue := .document [("when", .dateTime 9000000000000000),
  ("args", .array [.int32 (-1), .undefined, .document [("to", .symbol "all"), ("at", .null)]]),
  ("code", .scopedJavascript "f(y, x)" [("y", .int32 2), ("x", .undefined)])]

def loggedCallForm : StoreValue := .document [
  ("args", .array [.int64 (-1), .null, .document [("at", .null), ("to", .string "all")]]),
  ("code", .scopedJavascript "f(y, x)" [("y", .int32 2), ("x", .undefined)]),
  ("when", .dateTime 8210266876799999)]

theorem loggedCall_normalizes : Normalizes loggedCall loggedCallForm ∧
    (Value.ofStored loggedCallForm).toStored = loggedCallForm := by
  obtain ⟨hforms, hagain⟩ := generic_conversion_normalizes loggedCall (by decide +kernel)
  have hform : loggedCallForm = (Value.ofStored loggedCall).toStored := rfl
  rw [hform]
  exact ⟨(hforms _).mpr rfl, hagain⟩

end StoreValue

end DocQuery
