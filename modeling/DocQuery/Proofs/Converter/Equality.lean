import DocQuery.Converter.Store
import DocQuery.Proofs.Double.Equality
import DocQuery.Proofs.Value.Equality

/-!
# What conversions make of equal values

Equal floats are the same but for the sign of a zero, and every conversion of a float forgets the sign but one: a property
of texts stores the float as it is written. So equal values are stored as equal ones if the floats that are stored as
texts are the same. There is one more condition, that the stored value equals itself, since the text of what is not a
number is read as such by a property of floats.
-/

namespace DocQuery

namespace Converter

/-- The floats of a value that a conversion stores as texts, in order. -/
def texts : Converter → Value → List Double
  | .string, .float x => [x]
  | .array inner, .array items => items.flatMap fun item => inner.texts item
  | .map inner, .map entries => entries.flatMap fun e => inner.texts e.2
  | _, _ => []

/-- The maps that a conversion goes into have distinct names. -/
def Orderly : Converter → Value → Prop
  | .array inner, .array items => ∀ item ∈ items, inner.Orderly item
  | .map inner, .map entries => (Entries.keys entries).Nodup ∧ ∀ e ∈ entries, inner.Orderly e.2
  | _, _ => True

private theorem forall_eq_of_flatMap_eq {α β : Type} {f g : α → List β} {l : List α}
    (hlength : ∀ a ∈ l, (f a).length = (g a).length) (hflat : l.flatMap f = l.flatMap g) : ∀ a ∈ l, f a = g a := by
  induction l with
  | nil => exact nofun
  | cons a rest ih =>
    rw [List.forall_mem_cons] at hlength ⊢
    rw [List.flatMap_cons, List.flatMap_cons] at hflat
    obtain ⟨hhead, hrest⟩ := List.append_inj hflat hlength.1
    exact ⟨hhead, ih hlength.2 hrest⟩

private theorem length_flatMap_congr {α β : Type} {f g : α → List β} {l : List α}
    (hlength : ∀ a ∈ l, (f a).length = (g a).length) : (l.flatMap f).length = (l.flatMap g).length := by
  rw [List.length_flatMap, List.length_flatMap, List.map_congr_left hlength]

variable {c : Converter} {v w : Value}

-- The texts of the items of an array are appended, so their lengths tell them apart again.
theorem length_texts (hsame : Value.Same v w) (c : Converter) : (c.texts v).length = (c.texts w).length := by
  induction hsame generalizing c with
  | scalar => rfl
  | float => cases c <;> rfl
  | raw => cases c <;> rfl
  | array _ ih =>
    cases c with
    | array inner =>
      simp only [texts, List.flatMap_map]
      exact length_flatMap_congr fun p hp => ih p hp inner
    | _ => rfl
  | map _ ih =>
    cases c with
    | map inner =>
      simp only [texts, Entries.mapValues, List.flatMap_map]
      exact length_flatMap_congr fun e he => ih e he inner
    | _ => rfl

/-- Equal values are stored as equal ones, if what is stored equals itself and the floats stored as texts are the same. -/
theorem toStore_same (hsame : Value.Same v w) (hnumbers : (c.toStore v).holdsNaN = false)
    (htexts : c.texts v = c.texts w) : (c.toStore v).same (c.toStore w) = true := by
  induction hsame generalizing c with
  | scalar => exact StoreValue.same_self hnumbers
  | float hxy =>
    cases c with
    | string =>
      cases List.singleton_inj.mp htexts
      exact StoreValue.same_self hnumbers
    | integer => simp [toStore, storeInteger, StoreValue.same, Double.truncate_of_same hxy]
    | boolean => simp [toStore, storeBoolean, truth?, StoreValue.same, Double.isZero_of_same hxy]
    -- The other conversions store a float as it is.
    | _ => exact (Value.Same.float hxy).toStored
  | raw hab =>
    cases c with
    | boolean => rfl
    | _ => exact (Value.Same.raw hab).toStored
  | @array pairs hpairs ih =>
    cases c with
    | boolean => rfl
    | array inner =>
      simp only [texts, List.flatMap_map] at htexts
      simp only [toStore, StoreValue.holdsNaN, List.map_map, StoreValue.same] at hnumbers ⊢
      rw [StoreValue.holdNaN_eq_false_iff, List.forall_mem_map] at hnumbers
      have hinner := forall_eq_of_flatMap_eq (fun p hp => length_texts (hpairs p hp) inner) htexts
      exact StoreValue.sameItems_map_iff.mpr fun p hp => ih p hp (hnumbers p hp) (hinner p hp)
    | _ => exact (Value.Same.array hpairs).toStored
  | @map pairs hpairs ih =>
    cases c with
    | boolean => rfl
    | map inner =>
      simp only [texts, Entries.mapValues, List.flatMap_map] at htexts
      simp only [toStore, StoreValue.holdsNaN, Entries.mapValues_mapValues] at hnumbers ⊢
      rw [StoreValue.fieldsHoldNaN_eq_false_iff, Entries.mapValues, List.forall_mem_map] at hnumbers
      have hinner := forall_eq_of_flatMap_eq (fun e he => length_texts (hpairs e he) inner) htexts
      exact StoreValue.document_same_of_forall fun e he => ih e he (hnumbers e he) (hinner e he)
    | _ => exact (Value.Same.map hpairs).toStored

/-- Values that are equal and stored as equal ones agree in the floats that are stored as texts. -/
theorem texts_eq_of_toStore_same (hsame : Value.Same v w) (horderly : c.Orderly v)
    (hstored : (c.toStore v).same (c.toStore w) = true) : c.texts v = c.texts w := by
  induction hsame generalizing c with
  | scalar => rfl
  | float hxy =>
    cases c with
    | string =>
      simp only [toStore, storeString, StoreValue.same, beq_iff_eq] at hstored
      rw [Double.eq_of_same_of_text hxy hstored]
    | _ => rfl
  | raw => cases c <;> rfl
  | array hpairs ih =>
    cases c with
    | array inner =>
      simp only [toStore, List.map_map, StoreValue.same] at hstored
      rw [StoreValue.sameItems_map_iff] at hstored
      simp only [Orderly, List.forall_mem_map] at horderly
      simp only [texts, List.flatMap_map]
      exact List.flatMap_congr fun p hp => ih p hp (horderly p hp) (hstored p hp)
    | _ => rfl
  | map hpairs ih =>
    cases c with
    | map inner =>
      obtain ⟨hkeys, hentries⟩ := horderly
      rw [Entries.keys_mapValues] at hkeys
      simp only [Entries.mapValues, List.forall_mem_map] at hentries
      simp only [toStore, Entries.mapValues_mapValues] at hstored
      rw [StoreValue.document_same_iff hkeys] at hstored
      simp only [texts, Entries.mapValues, List.flatMap_map]
      exact List.flatMap_congr fun e he => ih e he (hentries e he) (hstored e he)
    | _ => rfl

end Converter

end DocQuery
