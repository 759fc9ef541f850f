import Mathlib.Data.List.Forall2
import DocQuery.Proofs.Entries
import DocQuery.Proofs.StoreValue.Equality
import DocQuery.Proofs.StoreValue.Parts
import DocQuery.Proofs.StoreValue.SortOrder
import DocQuery.StoreValue.Text

/-!
# Integers of two widths

A number is one number in either width, and values are compared as numbers. Arrays and documents are not compared,
though: they are the same part by part, and there an integer of one width is another value than the same integer of the
other. So widening integers goes unnoticed by the order of values, and by equality with a value just if the value has no
integer in its parts that both widths have.
-/

namespace DocQuery

namespace StoreValue

/-- The second value is the first with some of the 32-bit integers in it, at whatever depth, widened to 64 bits. What has
parts is given by the pairs of its parts before and after. -/
inductive Widened : StoreValue → StoreValue → Prop where
  | refl (v : StoreValue) : Widened v v
  | integer (n : Int32) : Widened (.int32 n) (.int64 n.toInt64)
  | array {pairs : List (StoreValue × StoreValue)} (hitems : ∀ p ∈ pairs, Widened p.1 p.2) :
    Widened (.array (pairs.map Prod.fst)) (.array (pairs.map Prod.snd))
  | document {pairs : Entries String (StoreValue × StoreValue)} (hfields : ∀ e ∈ pairs, Widened e.2.1 e.2.2) :
    Widened (.document (pairs.mapValues Prod.fst)) (.document (pairs.mapValues Prod.snd))
  | scopedJavascript (code : String) {pairs : Entries String (StoreValue × StoreValue)}
    (hscope : ∀ e ∈ pairs, Widened e.2.1 e.2.2) :
    Widened (.scopedJavascript code (pairs.mapValues Prod.fst)) (.scopedJavascript code (pairs.mapValues Prod.snd))

/-- Whether a value is an integer that both widths have. -/
def isNarrow : StoreValue → Bool
  | .int32 _ => true
  | .int64 n => n.toInt32.toInt64 == n
  | _ => false

/-- Whether an integer that both widths have is in the parts of a value, at whatever depth. -/
def nestsNarrow (v : StoreValue) : Bool := v.parts.any (holdsSome isNarrow)

variable {v v' w w' : StoreValue}

/-! ### Integers of 32 bits -/

theorem nestsNarrow_eq_false_iff : v.nestsNarrow = false ↔ ∀ part ∈ v.parts, part.holdsSome isNarrow = false := by
  rw [nestsNarrow, List.any_eq_false]
  simp only [Bool.not_eq_true]

/-- Nothing changes in a value that holds no integer of 32 bits. -/
theorem Widened.eq_of_not_narrow (hw : Widened w w') (hnarrow : w.holdsSome isNarrow = false) : w' = w := by
  induction hw with
  | refl => rfl
  | integer n => cases hnarrow
  | array hitems ih =>
    have hparts := (holdsSome_eq_false_iff.mp hnarrow).2
    refine congrArg StoreValue.array (List.map_congr_left fun p hp => ih p hp (hparts _ ?_))
    exact List.mem_map_of_mem hp
  | document hfields ih =>
    have hparts := (holdsSome_eq_false_iff.mp hnarrow).2
    refine congrArg StoreValue.document (List.map_congr_left fun e he => ?_)
    rw [ih e he (hparts _ (List.mem_map_of_mem (List.mem_map_of_mem he)))]
  | scopedJavascript code hscope ih =>
    have hparts := (holdsSome_eq_false_iff.mp hnarrow).2
    refine congrArg (StoreValue.scopedJavascript code) (List.map_congr_left fun e he => ?_)
    rw [ih e he (hparts _ (List.mem_map_of_mem (List.mem_map_of_mem he)))]

/-- A widened document has the same names. -/
theorem Widened.exists_pairs {fields : List (String × StoreValue)} (hw : Widened (.document fields) w) :
    ∃ pairs : Entries String (StoreValue × StoreValue), fields = pairs.mapValues Prod.fst ∧
      w = .document (pairs.mapValues Prod.snd) ∧ ∀ e ∈ pairs, Widened e.2.1 e.2.2 := by
  cases hw with
  | refl =>
    refine ⟨Entries.mapValues (fun v => (v, v)) fields, ?_, ?_, fun e he => ?_⟩
    · exact (Entries.map_map_back fun _ _ => rfl).symm
    · exact congrArg StoreValue.document (Entries.map_map_back fun _ _ => rfl).symm
    · obtain ⟨field, -, rfl⟩ := List.mem_map.mp he
      exact .refl _
  | document hfields => exact ⟨_, rfl, rfl, hfields⟩

/-! ### Texts and numbers -/

theorem itemTexts_eq_map (items : List StoreValue) : itemTexts items = items.map text := by
  induction items with
  | nil => rfl
  | cons v rest ih => rw [itemTexts, ih, List.map_cons]

theorem fieldTexts_eq_map (fields : List (String × StoreValue)) :
    fieldTexts fields = fields.map fun e => "\"" ++ e.1 ++ "\": " ++ e.2.text := by
  induction fields with
  | nil => rfl
  | cons e rest ih => rw [fieldTexts, ih, List.map_cons]

theorem Widened.text_eq (hv : Widened v v') : v.text = v'.text := by
  induction hv with
  | refl => rfl
  | integer n => rw [text, text, Int32.toInt_toInt64]
  | @array pairs hitems ih =>
    have htexts : (pairs.map Prod.fst).map text = (pairs.map Prod.snd).map text := by
      rw [List.map_map, List.map_map]
      exact List.map_congr_left ih
    rw [text, text, itemTexts_eq_map, itemTexts_eq_map, htexts]
  | @document pairs hfields ih =>
    have htexts : fieldTexts (pairs.mapValues Prod.fst) = fieldTexts (pairs.mapValues Prod.snd) := by
      rw [fieldTexts_eq_map, fieldTexts_eq_map, Entries.mapValues, Entries.mapValues, List.map_map, List.map_map]
      exact List.map_congr_left fun e he => congrArg _ (ih e he)
    have hempty : (pairs.mapValues Prod.fst).isEmpty = (pairs.mapValues Prod.snd).isEmpty := by
      cases pairs <;> rfl
    rw [text, text, htexts, hempty]
  | scopedJavascript => rw [text, text]

theorem Widened.integer?_eq (hv : Widened v v') : v.integer? = v'.integer? := by
  cases hv <;> rfl

theorem Widened.number?_eq (hv : Widened v v') : v.number? = v'.number? := by
  cases hv with
  | integer n => rw [number?, number?, Int32.toInt_toInt64]
  | _ => rfl

/-! ### Order -/

theorem Widened.isOrdered_iff (hv : Widened v v') : v.IsOrdered ↔ v'.IsOrdered := by
  cases hv <;> rfl

theorem Widened.compare?_left (hv : Widened v v') (w : StoreValue) : v.compare? w = v'.compare? w := by
  cases hv with
  | refl => rfl
  | integer n =>
    cases w with
    | double x => exact congrArg (fun m => (Double.ofInt m).compare? x) (Int32.toInt_toInt64 n).symm
    | _ => rfl
  | array | document | scopedJavascript => cases w <;> rfl

theorem Widened.compare?_eq (hv : Widened v v') (hw : Widened w w') : v.compare? w = v'.compare? w' := by
  rw [hv.compare?_left, compare?_swap, hw.compare?_left, ← compare?_swap]

/-! ### Equality -/

theorem sameItems_congr {pairs : List (StoreValue × StoreValue)} {others : List StoreValue}
    (hitems : ∀ p ∈ pairs, ∀ w ∈ others, p.1.same w = p.2.same w ∧ w.same p.1 = w.same p.2) :
    sameItems (pairs.map Prod.fst) others = sameItems (pairs.map Prod.snd) others ∧
      sameItems others (pairs.map Prod.fst) = sameItems others (pairs.map Prod.snd) := by
  induction pairs generalizing others with
  | nil => exact ⟨rfl, rfl⟩
  | cons p rest ih =>
    cases others with
    | nil => exact ⟨rfl, rfl⟩
    | cons w others =>
      have hhead := hitems p List.mem_cons_self w List.mem_cons_self
      have hrest := ih fun q hq u hu => hitems q (List.mem_cons_of_mem _ hq) u (List.mem_cons_of_mem _ hu)
      simp only [List.map_cons, sameItems, hhead, hrest, and_self]

theorem sameFields_congr {pairs : Entries String (StoreValue × StoreValue)} {others : List (String × StoreValue)}
    (hfields : ∀ e ∈ pairs, ∀ o ∈ others, e.2.1.same o.2 = e.2.2.same o.2 ∧ o.2.same e.2.1 = o.2.same e.2.2) :
    sameFields (pairs.mapValues Prod.fst) others = sameFields (pairs.mapValues Prod.snd) others ∧
      sameFields others (pairs.mapValues Prod.fst) = sameFields others (pairs.mapValues Prod.snd) := by
  constructor
  · rw [Bool.eq_iff_iff, sameFields_iff, sameFields_iff, Entries.mapValues, Entries.mapValues, List.forall_mem_map,
      List.forall_mem_map]
    refine forall₂_congr fun e he => exists_congr fun o => and_congr_right fun ho => ?_
    rw [(hfields e he o ho).1]
  · rw [Bool.eq_iff_iff, sameFields_iff, sameFields_iff]
    refine forall₂_congr fun o ho => ?_
    simp only [Entries.mapValues, List.mem_map, exists_exists_and_eq_and]
    refine exists_congr fun e => and_congr_right fun he => ?_
    rw [(hfields e he o ho).2]

/-- A value without an integer of both widths is the same as a value just if it is the same as the widened value. -/
theorem Widened.same_eq (hv : Widened v v') (hnarrow : w.holdsSome isNarrow = false) :
    v.same w = v'.same w ∧ w.same v = w.same v' := by
  induction hv generalizing w with
  | refl => exact ⟨rfl, rfl⟩
  | integer n =>
    cases w with
    | int32 m => cases hnarrow
    | int64 m =>
      have hne : n.toInt64 ≠ m := by
        rintro rfl
        simp [holdsSome, isNarrow] at hnarrow
      simp [same, hne, hne.symm]
    | _ => exact ⟨rfl, rfl⟩
  | array hitems ih =>
    cases w with
    | array others =>
      have hothers := (holdsSome_eq_false_iff.mp hnarrow).2
      exact sameItems_congr fun p hp w hw => ih p hp (hothers w hw)
    | _ => exact ⟨rfl, rfl⟩
  | @document pairs hfields ih =>
    cases w with
    | document others =>
      have hothers := (holdsSome_eq_false_iff.mp hnarrow).2
      have hfields := sameFields_congr fun e he o ho => ih e he (hothers o.2 (List.mem_map_of_mem ho))
      simp only [same, hfields, Entries.length_mapValues, and_self]
    | _ => exact ⟨rfl, rfl⟩
  | @scopedJavascript code pairs hscope ih =>
    cases w with
    | scopedJavascript code' others =>
      have hothers := (holdsSome_eq_false_iff.mp hnarrow).2
      have hfields := sameFields_congr fun e he o ho => ih e he (hothers o.2 (List.mem_map_of_mem ho))
      simp only [same, hfields, Entries.length_mapValues, and_self]
    | _ => exact ⟨rfl, rfl⟩

/-- Equality does not notice that integers are widened, unless the second value has one among its parts. -/
theorem Widened.equals_eq (hv : Widened v v') (hw : Widened w w') (hnarrow : w.nestsNarrow = false) :
    v.equals w = v'.equals w' := by
  by_cases hordered : w.IsOrdered
  · rw [equals_of_ordered hordered, equals_of_ordered (hw.isOrdered_iff.mp hordered), hv.compare?_eq hw]
  · have hself : w.isNarrow = false := by
      cases w with
      | int32 | int64 => exact absurd trivial hordered
      | _ => rfl
    have hholds := holdsSome_eq_false_iff.mpr ⟨hself, nestsNarrow_eq_false_iff.mp hnarrow⟩
    rw [hw.eq_of_not_narrow hholds, equals, equals, (hv.same_eq hholds).1, hv.compare?_left]

/-- An array without integers of both widths is the same as an array just if it is the same as the widened array. -/
theorem Widened.same_array_eq (hv : v.Widened v') (hw : w.Widened w') (hnarrow : w.nestsNarrow = false)
    (harray : v.items?.isSome = true) : w.same v = w'.same v' := by
  obtain ⟨items, rfl⟩ : ∃ items, v = .array items := by
    cases v with
    | array items => exact ⟨items, rfl⟩
    | _ => cases harray
  obtain ⟨items', rfl⟩ : ∃ items', v' = .array items' := by
    cases hv with
    | refl => exact ⟨items, rfl⟩
    | array => exact ⟨_, rfl⟩
  cases w with
  | array others =>
    have hholds := holdsSome_eq_false_iff.mpr ⟨rfl, nestsNarrow_eq_false_iff.mp hnarrow⟩
    rw [hw.eq_of_not_narrow hholds, (hv.same_eq hholds).2]
  | _ => cases hw <;> rfl

/-! ### Items -/

theorem forall₂_widened_self (items : List StoreValue) : List.Forall₂ Widened items items :=
  List.forall₂_same.mpr fun v _ => .refl v

theorem forall₂_widened_pairs {pairs : List (StoreValue × StoreValue)} (hitems : ∀ p ∈ pairs, Widened p.1 p.2) :
    List.Forall₂ Widened (pairs.map Prod.fst) (pairs.map Prod.snd) := by
  rw [List.forall₂_map_left_iff, List.forall₂_map_right_iff]
  exact List.forall₂_same.mpr hitems

theorem Widened.items? (hv : v.Widened v') : Option.Rel (List.Forall₂ Widened) v.items? v'.items? := by
  cases hv with
  | refl =>
    cases v.items? with
    | none => exact .none
    | some items => exact .some (forall₂_widened_self items)
  | array hitems => exact .some (forall₂_widened_pairs hitems)
  | integer | document | scopedJavascript => exact .none

theorem any_congr_of_forall₂ {items items' : List StoreValue} {p q : StoreValue → Bool}
    (hitems : List.Forall₂ Widened items items') (hpq : ∀ v ∈ items, ∀ v', v.Widened v' → p v = q v') :
    items.any p = items'.any q := by
  induction hitems with
  | nil => rfl
  | cons hv hrest ih =>
    rw [List.any_cons, List.any_cons, hpq _ List.mem_cons_self _ hv,
      ih fun u hu => hpq u (List.mem_cons_of_mem _ hu)]

theorem map_congr_of_forall₂ {α : Type} {f : StoreValue → α} {items items' : List StoreValue}
    (hitems : List.Forall₂ Widened items items') (hf : ∀ v v', v.Widened v' → f v = f v') :
    items.map f = items'.map f := by
  induction hitems with
  | nil => rfl
  | cons hv hrest ih => rw [List.map_cons, List.map_cons, hf _ _ hv, ih]

/-! ### Telling the widths apart -/

/-- Two values that are one another with integers widened and are not the same. -/
def DifferInWidth (v w : StoreValue) : Prop := (v.Widened w ∨ w.Widened v) ∧ v.same w = false ∧ w.same v = false

variable {part other : StoreValue}

theorem exists_differInWidth_of_isNarrow (hnarrow : v.isNarrow = true) : ∃ w, v.DifferInWidth w := by
  cases v with
  | int32 n => exact ⟨.int64 n.toInt64, .inl (.integer n), rfl, rfl⟩
  | int64 n =>
    have hn : n.toInt32.toInt64 = n := eq_of_beq hnarrow
    have hwidened := Widened.integer n.toInt32
    rw [hn] at hwidened
    exact ⟨.int32 n.toInt32, .inr hwidened, rfl, rfl⟩
  | _ => cases hnarrow

/-- A list with a value given to each of its cells: another one to one of them, and the others keep their own. -/
theorem exists_replacing {α : Type} (value : α → StoreValue) {cells : List α} {cell : α} (hcell : cell ∈ cells)
    (other : StoreValue) : ∃ pairs : List (α × StoreValue), cells = pairs.map Prod.fst ∧ (cell, other) ∈ pairs ∧
      ∀ p ∈ pairs, p = (cell, other) ∨ p.2 = value p.1 := by
  obtain ⟨before, after, rfl⟩ := List.append_of_mem hcell
  refine ⟨before.map (fun c => (c, value c)) ++ (cell, other) :: after.map fun c => (c, value c), ?_, ?_, ?_⟩
  · rw [List.map_append, List.map_cons, Entries.map_map_back fun _ _ => rfl, Entries.map_map_back fun _ _ => rfl]
  · exact List.mem_append_right _ List.mem_cons_self
  · intro p hp
    rcases List.mem_append.mp hp with hp | hp
    · obtain ⟨c, -, rfl⟩ := List.mem_map.mp hp
      exact .inr rfl
    · rcases List.mem_cons.mp hp with rfl | hp
      · exact .inl rfl
      · obtain ⟨c, -, rfl⟩ := List.mem_map.mp hp
        exact .inr rfl

theorem exists_differInWidth_of_item {items : List StoreValue} (hpart : part ∈ items) (hother : part.DifferInWidth other) :
    ∃ w, (array items).DifferInWidth w := by
  obtain ⟨pairs, rfl, hpair, hpairs⟩ := exists_replacing id hpart other
  obtain ⟨hwidened, hne, hne'⟩ := hother
  refine ⟨.array (pairs.map Prod.snd), ?_, ?_, ?_⟩
  · refine hwidened.imp (fun hwidened => .array fun p hp => ?_) fun hwidened => ?_
    · rcases hpairs p hp with rfl | heq
      · exact hwidened
      · rw [heq]; exact .refl _
    · have hswapped : ∀ p ∈ pairs.map Prod.swap, Widened p.1 p.2 := by
        refine List.forall_mem_map.mpr fun p hp => ?_
        rcases hpairs p hp with rfl | heq
        · exact hwidened
        · rw [Prod.fst_swap, Prod.snd_swap, heq]; exact .refl _
      have harray := Widened.array hswapped
      rwa [List.map_map, List.map_map] at harray
  · rw [same, Bool.eq_false_iff]
    exact fun hsame => Bool.eq_false_iff.mp hne (sameItems_map_iff.mp hsame _ hpair)
  · rw [same, Bool.eq_false_iff]
    exact fun hsame => Bool.eq_false_iff.mp hne' (sameItems_map_iff.mp hsame _ hpair)

/-- Fields with another value of one of them, where the names are distinct. -/
theorem exists_differInWidth_of_field {fields : List (String × StoreValue)} (hkeys : (Entries.keys fields).Nodup)
    (hpart : part ∈ fields.map Prod.snd) (hother : part.DifferInWidth other) :
    ∃ pairs : Entries String (StoreValue × StoreValue), fields = pairs.mapValues Prod.fst ∧
      ((∀ e ∈ pairs, Widened e.2.1 e.2.2) ∨ ∀ e ∈ pairs.mapValues Prod.swap, Widened e.2.1 e.2.2) ∧
      (document (pairs.mapValues Prod.fst)).same (.document (pairs.mapValues Prod.snd)) = false ∧
      (document (pairs.mapValues Prod.snd)).same (.document (pairs.mapValues Prod.fst)) = false := by
  obtain ⟨field, hfield, rfl⟩ := List.mem_map.mp hpart
  obtain ⟨cells, rfl, hcell, hcells⟩ := exists_replacing Prod.snd hfield other
  obtain ⟨hwidened, hne, hne'⟩ := hother
  let pairs : Entries String (StoreValue × StoreValue) := cells.map fun c => (c.1.1, c.1.2, c.2)
  have hpair : (field.1, field.2, other) ∈ pairs := List.mem_map_of_mem hcell
  have hfirst : cells.map Prod.fst = pairs.mapValues Prod.fst := by
    rw [Entries.mapValues, List.map_map]
    rfl
  have hnodup : pairs.keys.Nodup := by rwa [← Entries.keys_mapValues Prod.fst, ← hfirst]
  refine ⟨pairs, hfirst, hwidened.imp (fun hwidened => ?_) fun hwidened => ?_, ?_, ?_⟩
  · refine List.forall_mem_map.mpr fun c hc => ?_
    rcases hcells c hc with rfl | heq
    · exact hwidened
    · rw [heq]; exact .refl _
  · refine List.forall_mem_map.mpr (List.forall_mem_map.mpr fun c hc => ?_)
    rcases hcells c hc with rfl | heq
    · exact hwidened
    · rw [Prod.fst_swap, Prod.snd_swap, heq]; exact .refl _
  · rw [Bool.eq_false_iff]
    exact fun hsame => Bool.eq_false_iff.mp hne ((document_same_iff hnodup).mp hsame _ hpair)
  · rw [Bool.eq_false_iff]
    exact fun hsame => Bool.eq_false_iff.mp hne' ((document_same_iff hnodup).mp hsame _ hpair)

theorem scopedJavascript_same (code : String) (scope others : List (String × StoreValue)) :
    (scopedJavascript code scope).same (.scopedJavascript code others) = (document scope).same (.document others) := by
  rw [same, same, beq_self_eq_true, Bool.true_and]

/-- A value that holds an integer of both widths, and no document with a name twice, has one that differs from it in the
width of an integer. -/
theorem exists_differInWidth (hnarrow : v.holdsSome isNarrow = true) (hnames : v.holdsSome repeatsName = false) :
    ∃ w, v.DifferInWidth w := by
  induction v using parts_induction with
  | hparts v ih =>
    obtain ⟨hname, hpartNames⟩ := holdsSome_eq_false_iff.mp hnames
    by_cases hself : v.isNarrow = true
    · exact exists_differInWidth_of_isNarrow hself
    · rw [holdsSome_eq, Bool.eq_false_iff.mpr hself, Bool.false_or, List.any_eq_true] at hnarrow
      obtain ⟨part, hpart, hholds⟩ := hnarrow
      obtain ⟨other, hother⟩ := ih part hpart hholds (hpartNames part hpart)
      cases v with
      | array items => exact exists_differInWidth_of_item hpart hother
      | document fields =>
        have hkeys : (Entries.keys fields).Nodup := by simpa [repeatsName] using hname
        obtain ⟨pairs, rfl, hwidened, hne, hne'⟩ := exists_differInWidth_of_field hkeys hpart hother
        refine ⟨_, hwidened.imp .document fun hswapped => ?_, hne, hne'⟩
        have hdocument := Widened.document hswapped
        rwa [Entries.mapValues_mapValues, Entries.mapValues_mapValues] at hdocument
      | scopedJavascript code scope =>
        have hkeys : (Entries.keys scope).Nodup := by simpa [repeatsName] using hname
        obtain ⟨pairs, rfl, hwidened, hne, hne'⟩ := exists_differInWidth_of_field hkeys hpart hother
        rw [← scopedJavascript_same code] at hne hne'
        refine ⟨_, hwidened.imp (.scopedJavascript code) fun hswapped => ?_, hne, hne'⟩
        have hscope := Widened.scopedJavascript code hswapped
        rwa [Entries.mapValues_mapValues, Entries.mapValues_mapValues] at hscope
      | _ => cases hpart

end StoreValue

end DocQuery
