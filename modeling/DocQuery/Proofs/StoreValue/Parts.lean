import DocQuery.StoreValue.Basic

/-!
# What a store value is made of

Arrays and documents have parts, and so has the scope of a script. What holds of a value if it holds of its parts holds
of every value, and whether some value in it passes a test is up to the value itself and to its parts.
-/

namespace DocQuery

namespace StoreValue

/-- The values that a value is made of. -/
def parts : StoreValue → List StoreValue
  | .array items => items
  | .document fields | .scopedJavascript _ fields => fields.map Prod.snd
  | _ => []

mutual

/-- Whether a value passes a test, or one of the values in it does, at whatever depth. -/
def holdsSome (test : StoreValue → Bool) : StoreValue → Bool
  | .array items => test (.array items) || itemsHoldSome test items
  | .document fields => test (.document fields) || fieldsHoldSome test fields
  | .scopedJavascript code scope => test (.scopedJavascript code scope) || fieldsHoldSome test scope
  | v => test v
termination_by structural v => v

def itemsHoldSome (test : StoreValue → Bool) : List StoreValue → Bool
  | [] => false
  | v :: rest => holdsSome test v || itemsHoldSome test rest
termination_by structural vs => vs

def fieldsHoldSome (test : StoreValue → Bool) : List (String × StoreValue) → Bool
  | [] => false
  | (_, v) :: rest => holdsSome test v || fieldsHoldSome test rest
termination_by structural fields => fields

end

/-- Whether a document, or the scope of a script, has a name more than once. -/
def repeatsName : StoreValue → Bool
  | .document fields | .scopedJavascript _ fields => !decide (Entries.keys fields).Nodup
  | _ => false

variable {v : StoreValue}

theorem itemsHoldSome_eq_any (test : StoreValue → Bool) (items : List StoreValue) :
    itemsHoldSome test items = items.any (holdsSome test) := by
  induction items with
  | nil => rfl
  | cons v rest ih => rw [itemsHoldSome, ih, List.any_cons]

theorem fieldsHoldSome_eq_any (test : StoreValue → Bool) (fields : List (String × StoreValue)) :
    fieldsHoldSome test fields = (fields.map Prod.snd).any (holdsSome test) := by
  induction fields with
  | nil => rfl
  | cons e rest ih => rw [fieldsHoldSome, ih, List.map_cons, List.any_cons]

theorem holdsSome_eq (test : StoreValue → Bool) (v : StoreValue) :
    v.holdsSome test = (test v || v.parts.any (holdsSome test)) := by
  cases v with
  | array items => rw [holdsSome, itemsHoldSome_eq_any, parts]
  | document fields | scopedJavascript _ fields => rw [holdsSome, fieldsHoldSome_eq_any, parts]
  | _ => exact (Bool.or_false _).symm

theorem holdsSome_eq_false_iff {test : StoreValue → Bool} :
    v.holdsSome test = false ↔ test v = false ∧ ∀ part ∈ v.parts, part.holdsSome test = false := by
  rw [holdsSome_eq, Bool.or_eq_false_iff, List.any_eq_false]
  simp only [Bool.not_eq_true]

mutual

/-- What is true of a value if it is true of its parts is true of every value. -/
theorem parts_induction {P : StoreValue → Prop} (hparts : ∀ v : StoreValue, (∀ part ∈ v.parts, P part) → P v) :
    ∀ v : StoreValue, P v
  | .array items => hparts _ (items_induction hparts items)
  | .document fields => hparts _ (fields_induction hparts fields)
  | .scopedJavascript _ scope => hparts _ (fields_induction hparts scope)
  | .null | .undefined | .minKey | .maxKey | .boolean _ | .int32 _ | .int64 _ | .double _ | .string _ | .symbol _
  | .dateTime _ | .objectId _ | .regex _ _ | .javascript _ | .timestamp _ _ | .binary _ _ | .decimal128 _ =>
    hparts _ nofun

theorem items_induction {P : StoreValue → Prop} (hparts : ∀ v : StoreValue, (∀ part ∈ v.parts, P part) → P v) :
    ∀ items : List StoreValue, ∀ part ∈ items, P part
  | [] => nofun
  | v :: rest => List.forall_mem_cons.mpr ⟨parts_induction hparts v, items_induction hparts rest⟩

theorem fields_induction {P : StoreValue → Prop} (hparts : ∀ v : StoreValue, (∀ part ∈ v.parts, P part) → P v) :
    ∀ fields : List (String × StoreValue), ∀ part ∈ fields.map Prod.snd, P part
  | [] => nofun
  | (_, v) :: rest => List.forall_mem_cons.mpr ⟨parts_induction hparts v, fields_induction hparts rest⟩

end

end StoreValue

end DocQuery
