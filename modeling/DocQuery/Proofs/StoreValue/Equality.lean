import Mathlib.Data.List.Nodup
import DocQuery.Proofs.Entries
import DocQuery.StoreValue.Order

/-!
# Equality of store values

Equality goes by value, so what is not a number does not equal itself, nor anything else. Nothing else keeps a value from
it: a value equals itself just if it holds no such double, at whatever depth. Arrays are equal item by item, and
documents with the same distinct names field by field.
-/

namespace DocQuery

theorem Double.same_self {x : Double} (hx : x.isNaN = false) : x.same x = true := by
  simp [same, compare?, hx]

namespace StoreValue

mutual

/-- Whether a value is or holds a double that is not a number. -/
def holdsNaN : StoreValue → Bool
  | .double x => x.isNaN
  | .array items => holdNaN items
  | .document fields => fieldsHoldNaN fields
  | .scopedJavascript _ scope => fieldsHoldNaN scope
  | _ => false
termination_by structural v => v

def holdNaN : List StoreValue → Bool
  | [] => false
  | v :: rest => holdsNaN v || holdNaN rest
termination_by structural vs => vs

def fieldsHoldNaN : List (String × StoreValue) → Bool
  | [] => false
  | (_, v) :: rest => holdsNaN v || fieldsHoldNaN rest
termination_by structural fields => fields

end

mutual

theorem same_self : ∀ {v : StoreValue}, v.holdsNaN = false → v.same v = true
  | .double x, hv => by
    rw [same]
    exact Double.same_self hv
  | .array items, hv => by
    rw [same]
    exact sameItems_self hv
  | .document fields, hv => by
    rw [same, sameFields_self fields hv fun _ => id]
    simp
  | .scopedJavascript code scope, hv => by
    rw [same, sameFields_self scope hv fun _ => id]
    simp
  | .null, _ | .undefined, _ | .minKey, _ | .maxKey, _ => rfl
  | .boolean _, _ | .int32 _, _ | .int64 _, _ | .string _, _ | .symbol _, _ | .dateTime _, _ | .objectId _, _
  | .regex _ _, _ | .javascript _, _ | .timestamp _ _, _ | .binary _ _, _ | .decimal128 _, _ => by simp [same]

theorem sameItems_self : ∀ {vs : List StoreValue}, holdNaN vs = false → sameItems vs vs = true
  | [], _ => rfl
  | v :: rest, hvs => by
    obtain ⟨hv, hrest⟩ := Bool.or_eq_false_iff.mp hvs
    rw [sameItems, same_self hv, sameItems_self hrest, Bool.and_self]

-- The first list is gone through while the second stays whole, so the two are told apart.
theorem sameFields_self : ∀ (fields : List (String × StoreValue)) {others : List (String × StoreValue)},
    fieldsHoldNaN fields = false → (∀ f ∈ fields, f ∈ others) → sameFields fields others = true
  | [], _, _, _ => rfl
  | (name, v) :: rest, others, hfields, hothers => by
    obtain ⟨hv, hrest⟩ := Bool.or_eq_false_iff.mp hfields
    have hfield : others.any (fun e => e.1 == name && same v e.2) = true :=
      List.any_eq_true.mpr ⟨(name, v), hothers _ List.mem_cons_self, by simp [same_self hv]⟩
    rw [sameFields, hfield, sameFields_self rest hrest fun f hf => hothers f (List.mem_cons_of_mem _ hf), Bool.and_self]

end

/-! ### What equals a value with parts -/

theorem same_array {items : List StoreValue} {w : StoreValue} (hsame : (array items).same w = true) :
    ∃ others, w = .array others ∧ sameItems items others = true := by
  cases w with
  | array others => exact ⟨others, rfl, by rwa [same] at hsame⟩
  | _ => simp [same] at hsame

theorem same_document {fields : List (String × StoreValue)} {w : StoreValue} (hsame : (document fields).same w = true) :
    ∃ others, w = .document others ∧ fields.length = others.length ∧ sameFields fields others = true := by
  cases w with
  | document others => exact ⟨others, rfl, by simpa [same] using hsame⟩
  | _ => simp [same] at hsame

theorem same_scopedJavascript {code : String} {scope : List (String × StoreValue)} {w : StoreValue}
    (hsame : (scopedJavascript code scope).same w = true) :
    ∃ others, w = .scopedJavascript code others ∧ scope.length = others.length ∧ sameFields scope others = true := by
  cases w with
  | scopedJavascript code' others =>
    obtain ⟨⟨rfl, hlength⟩, hfields⟩ : (code = code' ∧ scope.length = others.length) ∧ sameFields scope others = true := by
      simpa [same] using hsame
    exact ⟨others, rfl, hlength, hfields⟩
  | _ => simp [same] at hsame

/-! ### Numbers -/

theorem holdNaN_eq_false_iff {vs : List StoreValue} : holdNaN vs = false ↔ ∀ v ∈ vs, v.holdsNaN = false := by
  induction vs with
  | nil => simp [holdNaN]
  | cons v rest ih => rw [holdNaN, Bool.or_eq_false_iff, ih, List.forall_mem_cons]

theorem fieldsHoldNaN_eq_false_iff {fields : List (String × StoreValue)} :
    fieldsHoldNaN fields = false ↔ ∀ e ∈ fields, e.2.holdsNaN = false := by
  induction fields with
  | nil => simp [fieldsHoldNaN]
  | cons e rest ih => rw [fieldsHoldNaN, Bool.or_eq_false_iff, ih, List.forall_mem_cons]

mutual

theorem holdsNaN_of_same : ∀ {v w : StoreValue}, v.same w = true → v.holdsNaN = false
  | .double x, w, hsame => by
    cases w with
    | double y =>
      rw [same, Double.same, Double.compare?] at hsame
      rw [holdsNaN]
      cases hx : x.isNaN with
      | false => rfl
      | true => simp [hx] at hsame
    | _ => simp [same] at hsame
  | .array items, w, hsame => by
    obtain ⟨others, rfl, hitems⟩ := same_array hsame
    exact holdNaN_of_same hitems
  | .document fields, w, hsame => by
    obtain ⟨others, rfl, -, hfields⟩ := same_document hsame
    exact fieldsHoldNaN_of_same fields hfields
  | .scopedJavascript code scope, w, hsame => by
    obtain ⟨others, rfl, -, hscope⟩ := same_scopedJavascript hsame
    exact fieldsHoldNaN_of_same scope hscope
  | .null, _, _ | .undefined, _, _ | .minKey, _, _ | .maxKey, _, _ | .boolean _, _, _ | .int32 _, _, _
  | .int64 _, _, _ | .string _, _, _ | .symbol _, _, _ | .dateTime _, _, _ | .objectId _, _, _
  | .regex _ _, _, _ | .javascript _, _, _ | .timestamp _ _, _, _ | .binary _ _, _, _ | .decimal128 _, _, _ => rfl

theorem holdNaN_of_same : ∀ {vs ws : List StoreValue}, sameItems vs ws = true → holdNaN vs = false
  | [], _, _ => rfl
  | _ :: _, [], hsame => by simp [sameItems] at hsame
  | v :: vs, w :: ws, hsame => by
    obtain ⟨hhead, hrest⟩ := Bool.and_eq_true_iff.mp hsame
    rw [holdNaN, holdsNaN_of_same hhead, holdNaN_of_same hrest, Bool.or_self]

theorem fieldsHoldNaN_of_same : ∀ (fields : List (String × StoreValue)) {others : List (String × StoreValue)},
    sameFields fields others = true → fieldsHoldNaN fields = false
  | [], _, _ => rfl
  | (name, v) :: rest, others, hsame => by
    obtain ⟨hfield, hrest⟩ := Bool.and_eq_true_iff.mp hsame
    obtain ⟨e, -, hequal⟩ := List.any_eq_true.mp hfield
    rw [fieldsHoldNaN, holdsNaN_of_same (Bool.and_eq_true_iff.mp hequal).2, fieldsHoldNaN_of_same rest hrest, Bool.or_self]

end

/-! ### Item by item and field by field -/

theorem sameItems_map_iff {α : Type} {f g : α → StoreValue} {l : List α} :
    sameItems (l.map f) (l.map g) = true ↔ ∀ a ∈ l, (f a).same (g a) = true := by
  induction l with
  | nil => simp [sameItems]
  | cons a rest ih => rw [List.map_cons, List.map_cons, sameItems, Bool.and_eq_true_iff, ih, List.forall_mem_cons]

theorem length_eq_of_sameItems {items others : List StoreValue} (hsame : sameItems items others = true) :
    items.length = others.length := by
  induction items generalizing others with
  | nil =>
    cases others with
    | nil => rfl
    | cons => simp [sameItems] at hsame
  | cons item rest ih =>
    cases others with
    | nil => simp [sameItems] at hsame
    | cons other others =>
      rw [sameItems, Bool.and_eq_true] at hsame
      rw [List.length_cons, List.length_cons, ih hsame.2]

theorem sameFields_iff {fields others : List (String × StoreValue)} :
    sameFields fields others = true ↔ ∀ e ∈ fields, ∃ o ∈ others, o.1 = e.1 ∧ e.2.same o.2 = true := by
  induction fields with
  | nil => simp [sameFields]
  | cons e rest ih => simp only [sameFields, Bool.and_eq_true_iff, ih, List.any_eq_true, beq_iff_eq, List.forall_mem_cons]

theorem document_same_of_forall {α : Type} {f g : α → StoreValue} {es : Entries String α}
    (hsame : ∀ e ∈ es, (f e.2).same (g e.2) = true) : (document (es.mapValues f)).same (.document (es.mapValues g)) = true := by
  rw [same, Bool.and_eq_true_iff, sameFields_iff]
  refine ⟨by simp [Entries.mapValues], fun field hfield => ?_⟩
  obtain ⟨e, he, rfl⟩ := List.mem_map.mp hfield
  exact ⟨_, List.mem_map_of_mem he, rfl, hsame e he⟩

/-- Documents with the same distinct names are equal just if they are field by field. -/
theorem document_same_iff {α : Type} {f g : α → StoreValue} {es : Entries String α} (hkeys : es.keys.Nodup) :
    (document (es.mapValues f)).same (.document (es.mapValues g)) = true ↔ ∀ e ∈ es, (f e.2).same (g e.2) = true := by
  refine ⟨fun hsame e he => ?_, document_same_of_forall⟩
  rw [same, Bool.and_eq_true_iff, sameFields_iff] at hsame
  obtain ⟨o, ho, hname, hvalue⟩ := hsame.2 _ (List.mem_map_of_mem he)
  obtain ⟨e', he', rfl⟩ := List.mem_map.mp ho
  cases List.inj_on_of_nodup_map hkeys he' he hname
  exact hvalue

theorem equals_self {v : StoreValue} (hv : v.holdsNaN = false) : v.equals v = true := by
  rw [equals, same_self hv, Bool.true_or]

end StoreValue

end DocQuery
