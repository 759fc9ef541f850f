import DocQuery.Proofs.Selector.Comparators
import DocQuery.Proofs.StoreValue.Width

/-!
# Matching whatever the width of integers

A path leads in a widened document to the widened value, if it leads anywhere, and selectors that are widened have the
same demands under the same names. What a demand makes of the two values is then the same, up to the values that it
compares for equality as a whole: no integer of both widths may be in the parts of one. That goes for errors as well,
since a message writes both widths alike.
-/

namespace DocQuery

open StoreValue

/-! ### Values that may be missing -/

section Missing

variable {α β γ δ : Type} {R : α → β → Prop} {S : γ → δ → Prop} {x : Option α} {y : Option β}

theorem rel_bind {f : α → Option γ} {g : β → Option δ} (hfirst : Option.Rel R x y)
    (hthen : ∀ a b, R a b → Option.Rel S (f a) (g b)) : Option.Rel S (x.bind f) (y.bind g) := by
  cases hfirst with
  | none => exact .none
  | some h => exact hthen _ _ h

theorem any_congr_of_rel {p : α → Bool} {q : β → Bool} (hrel : Option.Rel R x y) (hpq : ∀ a b, R a b → p a = q b) :
    x.any p = y.any q := by
  cases hrel with
  | none => rfl
  | some h => exact hpq _ _ h

end Missing

namespace StoreValue

variable {v v' : StoreValue}

theorem rel_widened_self (value : Option StoreValue) : Option.Rel Widened value value := by
  cases value with
  | none => exact .none
  | some v => exact .some (.refl v)

/-! ### Following paths -/

theorem Widened.child? (hv : v.Widened v') (part : String) : Option.Rel Widened (v.child? part) (v'.child? part) := by
  cases hv with
  | refl => exact rel_widened_self _
  | integer | scopedJavascript => exact .none
  | @array pairs hitems =>
    rw [StoreValue.child?, StoreValue.child?]
    cases Text.index? part.toList with
    | none => exact .none
    | some i =>
      simp only [Option.bind_eq_bind, Option.bind_some, List.getElem?_map]
      cases hpair : pairs[i]? with
      | none => exact .none
      | some p => exact .some (hitems p (List.mem_of_getElem? hpair))
  | @document pairs hfields =>
    rw [StoreValue.child?, StoreValue.child?, Entries.get?_mapValues, Entries.get?_mapValues]
    cases hpair : pairs.get? part with
    | none => exact .none
    | some p => exact .some (hfields _ (Entries.mem_of_get? hpair))

theorem Widened.follow? (hv : v.Widened v') (path : List String) :
    Option.Rel Widened (v.follow? path) (v'.follow? path) := by
  induction path generalizing v v' with
  | nil => exact .some hv
  | cons part rest ih => exact rel_bind (hv.child? part) fun _ _ => ih

end StoreValue

namespace Selector

variable {value value' : Option StoreValue} {v v' w w' : StoreValue}

/-! ### Equality and order -/

theorem forall₂_candidates (hvalue : Option.Rel Widened value value') :
    List.Forall₂ Widened (candidates value) (candidates value') := by
  cases hvalue with
  | none => exact .nil
  | some hv =>
    cases hv with
    | refl => exact forall₂_widened_self _
    | array hitems => exact forall₂_widened_pairs hitems
    | integer n => exact .cons (.integer n) .nil
    | document hfields => exact .cons (.document hfields) .nil
    | scopedJavascript code hscope => exact .cons (.scopedJavascript code hscope) .nil

theorem stands_widened (accept : Ordering → Bool) (hvalue : Option.Rel Widened value value') (hw : w.Widened w') :
    stands accept value w = stands accept value' w' := by
  rw [stands_eq_any, stands_eq_any]
  refine any_congr_of_forall₂ (forall₂_candidates hvalue) fun v _ v' hv => ?_
  rw [hv.compare?_eq hw]

/-- What is there equals the expected value, has it for an item or is the same array. -/
theorem holds_some (v w : StoreValue) :
    holds (some v) w = ((candidates (some v)).any (·.equals w) || (v.items?.isSome && w.same v)) := by
  cases v with
  | array items =>
    cases w <;> rfl
  | _ => simp [holds, candidates, items?]

theorem holds_widened (hvalue : Option.Rel Widened value value') (hw : w.Widened w') (hnarrow : w.nestsNarrow = false) :
    holds value w = holds value' w' := by
  have hitems := any_congr_of_forall₂ (p := (·.equals w)) (q := (·.equals w')) (forall₂_candidates hvalue)
    fun v _ v' hv => hv.equals_eq hw hnarrow
  cases hvalue with
  | none => cases hw <;> rfl
  | @some v v' hv =>
    have hisSome : v.items?.isSome = v'.items?.isSome := by cases hv <;> rfl
    rw [holds_some, holds_some, hitems, ← hisSome]
    cases harray : v.items?.isSome with
    | false => rfl
    | true => rw [hv.same_array_eq hw hnarrow harray]

end Selector

/-- The values that a comparison compares for equality as a whole. -/
def Comparison.equated (c : Comparison) (operand : StoreValue) : List StoreValue :=
  match c with
  | equal | unequal => [operand]
  | oneOf | noneOf | allOf => operand.items?.getD []
  | _ => []

namespace Selector

/-! ### Comparisons -/

section Comparisons

variable {value value' : Option StoreValue} {w w' : StoreValue}

/-- An array becomes an array of widened items, and nothing else becomes one. -/
theorem rel_items (hvalue : Option.Rel Widened value value') :
    Option.Rel (List.Forall₂ Widened) (value.bind items?) (value'.bind items?) :=
  rel_bind hvalue fun _ _ hv => hv.items?

theorem holdsAll_eq (value : Option StoreValue) (required : List StoreValue) :
    holdsAll value required = (value.bind items?).any fun items => required.all fun r => items.any (·.equals r) := by
  obtain _ | v := value
  · rfl
  · cases v <;> rfl

theorem hasLength_eq (value : Option StoreValue) (size : Int64) :
    hasLength value size = (value.bind items?).any fun items => (items.length : Int) = size.toInt := by
  obtain _ | v := value
  · rfl
  · cases v <;> rfl

theorem holdsAll_widened (hvalue : Option.Rel Widened value value') {required required' : List StoreValue}
    (hrequired : List.Forall₂ Widened required required') (hnarrow : ∀ w ∈ required, w.nestsNarrow = false) :
    holdsAll value required = holdsAll value' required' := by
  rw [holdsAll_eq, holdsAll_eq]
  refine any_congr_of_rel (rel_items hvalue) fun items items' hitems => ?_
  induction hrequired with
  | nil => rfl
  | cons hw hrest ih =>
    obtain ⟨hhead, hnarrow⟩ := List.forall_mem_cons.mp hnarrow
    rw [List.all_cons, List.all_cons, ih hnarrow,
      any_congr_of_forall₂ hitems fun v _ v' hv => hv.equals_eq hw hhead]

theorem hasLength_widened (hvalue : Option.Rel Widened value value') (size : Int64) :
    hasLength value size = hasLength value' size := by
  rw [hasLength_eq, hasLength_eq]
  refine any_congr_of_rel (rel_items hvalue) fun items items' hitems => ?_
  rw [hitems.length_eq]

theorem wantsPresence_widened (hw : w.Widened w') : wantsPresence w = wantsPresence w' := by
  have hnumber : (w.number?.any fun x => !x.isZero) = w'.number?.any fun x => !x.isZero := by rw [hw.number?_eq]
  cases hw with
  | integer n => exact hnumber
  | _ => rfl

theorem wholeNumber?_widened (hvalue : Option.Rel Widened value value') :
    value.bind wholeNumber? = value'.bind wholeNumber? := by
  cases hvalue with
  | none => rfl
  | some hv => rw [Option.bind_some, Option.bind_some, wholeNumber?, wholeNumber?, hv.integer?_eq, hv.number?_eq]

theorem divisorRemainder_widened (hw : w.Widened w') {items items' : List StoreValue}
    (hitems : List.Forall₂ Widened items items') :
    (divisorRemainder w items).mapError SelectorError.message =
      (divisorRemainder w' items').mapError SelectorError.message := by
  have hmessage : (SelectorError.badRemainder w).message = (SelectorError.badRemainder w').message :=
    congrArg (fun text => "$mod expects [divisor, remainder], got " ++ text) hw.text_eq
  rw [divisorRemainder, divisorRemainder, map_congr_of_forall₂ hitems fun _ _ hv => hv.integer?_eq]
  split
  · split
    · exact congrArg Except.error hmessage
    · rfl
  · exact congrArg Except.error hmessage

theorem operandItems_widened (c : Comparison) (hw : w.Widened w') {f g : List StoreValue → Except SelectorError Bool}
    (hthen : ∀ items items', w.items? = some items → List.Forall₂ Widened items items' →
      (f items).mapError SelectorError.message = (g items').mapError SelectorError.message) :
    (operandItems c w >>= f).mapError SelectorError.message = (operandItems c w' >>= g).mapError SelectorError.message := by
  have hrel := hw.items?
  rw [operandItems, operandItems]
  generalize hitems : w.items? = read at hrel ⊢
  generalize w'.items? = read' at hrel ⊢
  cases hrel with
  | none =>
    have hmessage : (SelectorError.notAnArray c.token w).message = (SelectorError.notAnArray c.token w').message :=
      congrArg (fun text => c.token ++ " expects an array, got " ++ text) hw.text_eq
    exact congrArg Except.error hmessage
  | some hall => exact hthen _ _ hitems hall

theorem evaluate_widened (hvalue : Option.Rel Widened value value') (c : Comparison) (hw : w.Widened w')
    (hnarrow : ∀ operand ∈ c.equated w, operand.nestsNarrow = false) :
    (evaluate value c w).mapError SelectorError.message = (evaluate value' c w').mapError SelectorError.message := by
  have hlisted : ∀ {items}, c.equated w = w.items?.getD [] → w.items? = some items →
      ∀ item ∈ items, item.nestsNarrow = false := by
    intro items hequated hitems
    rw [hequated, hitems] at hnarrow
    exact hnarrow
  cases c with
  | equal | unequal => rw [evaluate, evaluate, holds_widened hvalue hw (hnarrow w List.mem_cons_self)]
  | above | atLeast | below | atMost => rw [evaluate, evaluate, stands_widened _ hvalue hw]
  | oneOf | noneOf =>
    rw [evaluate, evaluate, map_eq_bind, map_eq_bind]
    refine operandItems_widened _ hw fun items items' hitems hall => ?_
    rw [any_congr_of_forall₂ hall fun v hv v' hwidened => holds_widened hvalue hwidened (hlisted rfl hitems v hv)]
  | allOf =>
    rw [evaluate, evaluate, map_eq_bind, map_eq_bind]
    refine operandItems_widened _ hw fun items items' hitems hall => ?_
    rw [holdsAll_widened hvalue hall (hlisted rfl hitems)]
  | size =>
    have hmessage : (SelectorError.badSize w).message = (SelectorError.badSize w').message :=
      congrArg (fun text => "$size expects an integer, got " ++ text) hw.text_eq
    rw [evaluate, evaluate, hw.integer?_eq]
    cases w'.integer? with
    | none => exact congrArg Except.error hmessage
    | some n => exact congrArg Except.ok (hasLength_widened hvalue n)
  | present =>
    have hisSome : value.isSome = value'.isSome := by cases hvalue <;> rfl
    rw [evaluate, evaluate, hisSome, wantsPresence_widened hw]
  | remainder =>
    rw [evaluate, evaluate]
    refine operandItems_widened _ hw fun items items' _ hall => ?_
    refine mapError_bind_congr (divisorRemainder_widened hw hall) fun _ => ?_
    rw [wholeNumber?_widened hvalue]

end Comparisons

/-! ### Demands -/

/-- The values that a demand compares for equality as a whole. -/
def equated (demand : StoreValue) : List StoreValue :=
  match demand with
  | .document fields =>
    if isOperators fields then
      fields.flatMap fun e => ((Comparison.ofToken? e.1).map fun c => c.equated e.2).getD []
    else [demand]
  | _ => [demand]

section Demands

variable {value value' : Option StoreValue} {w w' : StoreValue}

theorem isOperators_mapValues {α : Type} (f g : α → StoreValue) (es : Entries String α) :
    isOperators (es.mapValues f) = isOperators (es.mapValues g) := by
  cases es with
  | nil => rfl
  | cons e rest => simp [isOperators, Entries.mapValues, List.all_map, Function.comp_def]

theorem evaluateToken_widened (hvalue : Option.Rel Widened value value') (token : String) (hw : w.Widened w')
    (hnarrow : ∀ operand ∈ ((Comparison.ofToken? token).map fun c => c.equated w).getD [], operand.nestsNarrow = false) :
    (evaluateToken value token w).mapError SelectorError.message =
      (evaluateToken value' token w').mapError SelectorError.message := by
  rw [evaluateToken, evaluateToken]
  cases hc : Comparison.ofToken? token with
  | none => rfl
  | some c =>
    rw [hc] at hnarrow
    exact evaluate_widened hvalue c hw hnarrow

theorem meets_widened (hvalue : Option.Rel Widened value value') (hw : w.Widened w')
    (hnarrow : ∀ operand ∈ equated w, operand.nestsNarrow = false) :
    (meets value w).mapError SelectorError.message = (meets value' w').mapError SelectorError.message := by
  cases w with
  | document fields =>
    obtain ⟨pairs, rfl, rfl, hpairs⟩ := hw.exists_pairs
    have hnames := isOperators_mapValues Prod.fst Prod.snd pairs
    rw [equated] at hnarrow
    rw [meets, meets, ← hnames]
    by_cases hoperators : isOperators (pairs.mapValues Prod.fst) = true
    · rw [if_pos hoperators] at hnarrow
      rw [if_pos hoperators, if_pos hoperators, Entries.mapValues, Entries.mapValues, allOk_map, allOk_map]
      refine mapError_allOk_congr fun e he => evaluateToken_widened hvalue e.1 (hpairs e he) fun operand hoperand => ?_
      exact hnarrow operand (List.mem_flatMap.mpr ⟨_, List.mem_map_of_mem he, hoperand⟩)
    · rw [if_neg hoperators] at hnarrow
      rw [if_neg hoperators, if_neg hoperators, holds_widened hvalue hw (hnarrow _ List.mem_cons_self)]
  | _ =>
    have hholds := holds_widened hvalue hw (hnarrow _ List.mem_cons_self)
    cases hw <;> exact congrArg Except.ok hholds

end Demands

end Selector

namespace Document

/-- The values that a selector compares for equality as a whole. -/
def equated (selector : Document) : List StoreValue := selector.flatMap fun e => Selector.equated e.2

theorem satisfies_widened {d d' selector selector' : Document} (hd : Widened (.document d) (.document d'))
    (hselector : Widened (.document selector) (.document selector'))
    (hnarrow : ∀ operand ∈ selector.equated, operand.nestsNarrow = false) :
    (d.satisfies selector).mapError SelectorError.message =
      (d'.satisfies selector').mapError SelectorError.message := by
  obtain ⟨pairs, rfl, heq, hpairs⟩ := hselector.exists_pairs
  cases heq
  rw [satisfies, satisfies, Entries.mapValues, Entries.mapValues, Selector.allOk_map, Selector.allOk_map]
  refine Selector.mapError_allOk_congr fun e he => Selector.meets_widened (hd.follow? _) (hpairs e he) ?_
  exact fun operand hoperand => hnarrow operand (List.mem_flatMap.mpr ⟨_, List.mem_map_of_mem he, hoperand⟩)

end Document

end DocQuery
