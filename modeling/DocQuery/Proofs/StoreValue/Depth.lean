import DocQuery.Proofs.StoreValue.Equality

/-!
# The depth of store values

A value with parts is deeper than its parts, and nothing equals a value that is less deep. So a value is not equal to
what it is built from, at whatever depth.
-/

namespace DocQuery

namespace StoreValue

mutual

/-- The number of values with parts that a value has inside one another, itself counted. -/
def depth : StoreValue → Nat
  | .array items => depthOfItems items + 1
  | .document fields => depthOfFields fields + 1
  | .scopedJavascript _ scope => depthOfFields scope + 1
  | _ => 0
termination_by structural v => v

def depthOfItems : List StoreValue → Nat
  | [] => 0
  | v :: rest => max (depth v) (depthOfItems rest)
termination_by structural vs => vs

def depthOfFields : List (String × StoreValue) → Nat
  | [] => 0
  | (_, v) :: rest => max (depth v) (depthOfFields rest)
termination_by structural fields => fields

end

theorem depth_le_of_mem_items {v : StoreValue} {items : List StoreValue} (hv : v ∈ items) :
    v.depth ≤ depthOfItems items := by
  induction items with
  | nil => exact absurd hv List.not_mem_nil
  | cons w rest ih =>
    rw [depthOfItems]
    rcases List.mem_cons.mp hv with rfl | hrest
    · exact Nat.le_max_left ..
    · exact Nat.le_trans (ih hrest) (Nat.le_max_right ..)

theorem depth_le_of_mem_fields {e : String × StoreValue} {fields : List (String × StoreValue)} (he : e ∈ fields) :
    e.2.depth ≤ depthOfFields fields := by
  induction fields with
  | nil => exact absurd he List.not_mem_nil
  | cons f rest ih =>
    rw [depthOfFields]
    rcases List.mem_cons.mp he with rfl | hrest
    · exact Nat.le_max_left ..
    · exact Nat.le_trans (ih hrest) (Nat.le_max_right ..)

mutual

theorem depth_le_of_same : ∀ {v w : StoreValue}, v.same w = true → v.depth ≤ w.depth
  | .array items, w, hsame => by
    obtain ⟨others, rfl, hitems⟩ := same_array hsame
    exact Nat.succ_le_succ (depthOfItems_le_of_same hitems)
  | .document fields, w, hsame => by
    obtain ⟨others, rfl, -, hfields⟩ := same_document hsame
    exact Nat.succ_le_succ (depthOfFields_le_of_same fields hfields)
  | .scopedJavascript code scope, w, hsame => by
    obtain ⟨others, rfl, -, hscope⟩ := same_scopedJavascript hsame
    exact Nat.succ_le_succ (depthOfFields_le_of_same scope hscope)
  | .null, _, _ | .undefined, _, _ | .minKey, _, _ | .maxKey, _, _ | .boolean _, _, _ | .int32 _, _, _
  | .int64 _, _, _ | .double _, _, _ | .string _, _, _ | .symbol _, _, _ | .dateTime _, _, _ | .objectId _, _, _
  | .regex _ _, _, _ | .javascript _, _, _ | .timestamp _ _, _, _ | .binary _ _, _, _ | .decimal128 _, _, _ =>
    Nat.zero_le _

theorem depthOfItems_le_of_same : ∀ {vs ws : List StoreValue}, sameItems vs ws = true → depthOfItems vs ≤ depthOfItems ws
  | [], _, _ => Nat.zero_le _
  | _ :: _, [], hsame => by simp [sameItems] at hsame
  | v :: vs, w :: ws, hsame => by
    obtain ⟨hhead, hrest⟩ := Bool.and_eq_true_iff.mp hsame
    have hhead := depth_le_of_same hhead
    have hrest := depthOfItems_le_of_same hrest
    rw [depthOfItems, depthOfItems]
    omega

theorem depthOfFields_le_of_same : ∀ (fields : List (String × StoreValue)) {others : List (String × StoreValue)},
    sameFields fields others = true → depthOfFields fields ≤ depthOfFields others
  | [], _, _ => Nat.zero_le _
  | (name, v) :: rest, others, hsame => by
    obtain ⟨hfield, hrest⟩ := Bool.and_eq_true_iff.mp hsame
    obtain ⟨e, he, hequal⟩ := List.any_eq_true.mp hfield
    have hv := depth_le_of_same (Bool.and_eq_true_iff.mp hequal).2
    have he := depth_le_of_mem_fields he
    have hrest := depthOfFields_le_of_same rest hrest
    rw [depthOfFields]
    omega

end

/-- A document is comparable with nothing, so only the same value is equal to it. -/
theorem equals_document_eq_false {fields : List (String × StoreValue)} {w : StoreValue}
    (hdepth : w.depth < (document fields).depth) : (document fields).equals w = false := by
  have hsame : (document fields).same w = false :=
    Bool.eq_false_iff.mpr fun hsame => Nat.not_le_of_lt hdepth (depth_le_of_same hsame)
  have hcompare : (document fields).compare? w = none := by cases w <;> rfl
  rw [equals, hsame, hcompare]
  rfl

end StoreValue

end DocQuery
