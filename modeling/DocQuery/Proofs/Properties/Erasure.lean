import DocQuery.Proofs.Properties.RoundTrip

/-!
# What saving a loaded document again erases

Reading a stored value passes on what the property's type does not expect, and storing coerces what it is given, so a
value may become null when it is read and saved again. That takes a text that is no number for a property of numbers, or
a value without truth for a property of truth values; every other value but null itself is still one. A document is saved
again field by field, unless a field that holds no property is named like one: then it takes the place of the property's
field.
-/

namespace DocQuery

/-- Whether a stored value has a truth: truth values and numbers do, and texts that are one of the words for it. -/
def StoreValue.hasTruth : StoreValue → Bool
  | .boolean _ | .int32 _ | .int64 _ | .double _ => true
  | .string s => (Converter.readBoolean s).isSome
  | _ => false

namespace Converter

variable {b : StoreValue}

/-- Whether a stored value means nothing to a conversion that makes null of what means nothing to it. -/
def erases : Converter → StoreValue → Bool
  | .integer, .string s => (readInteger s).isNone
  | .float, .string s => (readFloat s).isNone
  | .boolean, b => !b.hasTruth
  | _, _ => false

/-! ### One value -/

theorem isSome_truth?_ofStored (b : StoreValue) : (truth? (Value.ofStored b)).isSome = b.hasTruth := by
  cases b <;> rfl

theorem storeBoolean_loadBoolean (b : StoreValue) :
    storeBoolean (loadBoolean b) = ((truth? (Value.ofStored b)).map StoreValue.boolean).getD .null := by
  rw [loadBoolean]
  cases htruth : truth? (Value.ofStored b) with
  | some t => rfl
  | none =>
    simp only [Option.map_none, Option.getD_none]
    rw [storeBoolean, htruth]
    rfl

theorem resave_boolean_eq_null_iff : resave .boolean b = .null ↔ b.hasTruth = false := by
  have htruth := isSome_truth?_ofStored b
  simp only [resave, toStore, fromStore, storeBoolean_loadBoolean]
  rw [← htruth]
  cases truth? (Value.ofStored b) <;> simp

theorem toStored_ofStored_eq_null_iff : (Value.ofStored b).toStored = .null ↔ b = .null ∨ b = .undefined := by
  cases b <;> simp [Value.ofStored, Value.toStored]

theorem resave_integer_eq_null_iff :
    resave .integer b = .null ↔ b = .null ∨ b = .undefined ∨ erases .integer b = true := by
  cases b with
  | string s =>
    cases hread : readInteger s <;>
      simp [resave, toStore, fromStore, loadInteger, storeInteger, Value.ofStored, erases, hread]
  | _ => simp [resave, toStore, fromStore, loadInteger, storeInteger, Value.ofStored, Value.toStored, erases]

theorem resave_float_eq_null_iff : resave .float b = .null ↔ b = .null ∨ b = .undefined ∨ erases .float b = true := by
  cases b with
  | string s =>
    cases hread : readFloat s <;> simp [resave, toStore, fromStore, loadFloat, storeFloat, Value.ofStored, erases, hread]
  | _ => simp [resave, toStore, fromStore, loadFloat, storeFloat, Value.ofStored, Value.toStored, erases]

theorem storeDate_string_ne_null (s : String) : storeDate (.string s) ≠ .null := by
  rw [storeDate]
  split <;> simp

theorem storeTime_string_ne_null (s : String) : storeTime (.string s) ≠ .null := by
  rw [storeTime]
  split <;> simp

theorem resave_date_eq_null_iff : resave .date b = .null ↔ b = .null ∨ b = .undefined := by
  cases b with
  | string s =>
    simp only [resave, toStore, fromStore, loadDate]
    split
    · simp [storeDate]
    · simp [storeDate_string_ne_null]
  | _ => simp [resave, toStore, fromStore, loadDate, storeDate, Value.ofStored, Value.toStored]

theorem resave_time_eq_null_iff : resave .time b = .null ↔ b = .null ∨ b = .undefined := by
  cases b with
  | string s =>
    simp only [resave, toStore, fromStore, loadTime]
    split
    · simp [storeTime]
    · simp [storeTime_string_ne_null]
  | _ => simp [resave, toStore, fromStore, loadTime, storeTime, Value.ofStored, Value.toStored]

/-- The values that become null when they are read and saved again. -/
theorem resave_eq_null_iff (c : Converter) :
    c.resave b = .null ↔ b = .null ∨ b = .undefined ∨ c.erases b = true := by
  cases c with
  | string =>
    cases b <;> simp [resave, toStore, fromStore, loadString, storeString, Value.ofStored, Value.toStored, erases]
  | integer => exact resave_integer_eq_null_iff
  | float => exact resave_float_eq_null_iff
  | boolean =>
    rw [resave_boolean_eq_null_iff, erases, Bool.not_eq_true']
    constructor
    · exact fun htruth => .inr (.inr htruth)
    · rintro (rfl | rfl | htruth)
      · rfl
      · rfl
      · exact htruth
  | symbol =>
    cases b <;> simp [resave, toStore, fromStore, loadSymbol, storeSymbol, Value.ofStored, Value.toStored, erases]
  | date => simpa [erases] using resave_date_eq_null_iff
  | time => simpa [erases] using resave_time_eq_null_iff
  | generic | named typeName => simpa [resave, toStore, fromStore, erases] using toStored_ofStored_eq_null_iff
  | array inner =>
    cases b <;> simp [resave, toStore, fromStore, Value.ofStored, Value.toStored, erases]
  | map inner =>
    cases b <;> simp [resave, toStore, fromStore, Value.ofStored, Value.toStored, erases]

end Converter

namespace Properties

/-! ### Documents -/

theorem get?_dump_load {ps : Properties} (hnames : ps.names.Nodup) {d : Document} (hkeys : d.keys.Nodup)
    (hapart : ps.KeepsFieldsApart d.keys) {field : String} {b : StoreValue} (hvalue : d.get? field = some b) :
    (ps.dump (ps.load d)).get? field = some ((ps.fieldConverter field).resave b) := by
  have hperm := dump_load_perm hnames hkeys hapart
  have hfields : Entries.keys (d.map fun f => (f.1, (ps.fieldConverter f.1).resave f.2)) = d.keys := by
    simp [Entries.keys, Function.comp_def]
  refine Entries.get?_of_mem ?_ (hperm.mem_iff.mpr (List.mem_map_of_mem (Entries.mem_of_get? hvalue)))
  rw [(Entries.keys_perm hperm).nodup_iff, hfields]
  exact hkeys

/-- Reading and saving again makes null of what means nothing to a property of numbers or of truth values, and of
nothing else but null. The items of arrays and the values of maps are saved again one by one, and so are the fields of a
document, each as its property says. -/
theorem erased_iff_meaningless :
    (∀ (type : PropertyType) (b : StoreValue),
      type.converter.resave b = .null ↔ b = .null ∨ b = .undefined ∨ type.converter.erases b = true) ∧
    (∀ (inner : PropertyType) (items : List StoreValue),
      inner.array.converter.resave (.array items) = .array (items.map inner.converter.resave)) ∧
    (∀ (inner : PropertyType) (fields : Document),
      inner.map.converter.resave (.document fields) =
        .document (Entries.sorted (fields.mapValues inner.converter.resave))) ∧
    (∀ (declarations : List Property) (d : Document), d.keys.Nodup → (ofList declarations).KeepsFieldsApart d.keys →
      ∀ (field : String) (b : StoreValue), d.get? field = some b →
        ∃ saved, ((ofList declarations).dump ((ofList declarations).load d)).get? field = some saved ∧
          (saved = .null ↔ b = .null ∨ b = .undefined ∨ ((ofList declarations).fieldConverter field).erases b = true)) := by
  refine ⟨fun type b => type.converter.resave_eq_null_iff, fun inner items => Converter.resave_array _ items,
    fun inner fields => Converter.resave_map _ fields, ?_⟩
  intro declarations d hkeys hapart field b hvalue
  exact ⟨_, get?_dump_load (nodup_names_ofList declarations) hkeys hapart hvalue, Converter.resave_eq_null_iff _⟩

/-! ### An age that is stored as years -/

def ageDeclarations : List Property := [⟨"age", .integer, "years"⟩]

def listedYears : Document := [("_id", .int32 1), ("years", .array [.string "thirty-six"]), ("seen", .string "soon")]

theorem listedYears_saved_again :
    ∃ saved, ((ofList ageDeclarations).dump ((ofList ageDeclarations).load listedYears)).get? "years" = some saved ∧
      saved ≠ .null := by
  have hapart : (ofList ageDeclarations).KeepsFieldsApart listedYears.keys := by
    unfold KeepsFieldsApart
    decide +kernel
  obtain ⟨saved, hsaved, hnull⟩ :=
    erased_iff_meaningless.2.2.2 ageDeclarations listedYears (by decide +kernel) hapart "years" _ rfl
  refine ⟨saved, hsaved, fun hlost => ?_⟩
  rcases hnull.mp hlost with heq | heq | hmeaningless
  · cases heq
  · cases heq
  · exact absurd hmeaningless (by decide +kernel)

/-- The second field is named like the property that the first one holds. -/
def shadowedYears : Document := [("years", .string "36"), ("age", .null)]

/-- What is not null may be erased: a text that is no number, and the field of a property when another field has the
property's name. -/
theorem saving_again_erases :
    (¬ ∀ (type : PropertyType) (b : StoreValue), type.converter.toStore (type.converter.fromStore b) = .null →
      b = .null ∨ b = .undefined) ∧
    (¬ ∀ (declarations : List Property) (d : Document), d.keys.Nodup → ∀ (field : String) (b : StoreValue),
      d.get? field = some b → b ≠ .null → b ≠ .undefined → ((ofList declarations).fieldConverter field).erases b = false →
        ((ofList declarations).dump ((ofList declarations).load d)).get? field ≠ some .null) := by
  constructor
  · intro hkept
    have herased : PropertyType.integer.converter.resave (.string "abc") = .null :=
      (Converter.resave_eq_null_iff _).mpr (.inr (.inr (by decide +kernel)))
    rcases hkept .integer (.string "abc") herased with heq | heq <;> cases heq
  · intro hkept
    exact hkept ageDeclarations shadowedYears (by decide +kernel) "years" (.string "36") rfl nofun nofun (by decide +kernel)
      rfl

end Properties

end DocQuery
