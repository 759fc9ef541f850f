import DocQuery.Proofs.StoreValue.Equality
import DocQuery.Value.Generic

/-!
# Equal native values

Equal values are of one shape. They differ in nothing but floats, which are compared by value, and in store values
carried along, which are equal as such. The generic conversion keeps all of that, so it takes equal values to equal ones.
-/

namespace DocQuery

namespace Value

/-- Whether a value has no parts and is equal to nothing but itself. -/
def isScalar : Value → Bool
  | .float _ | .array _ | .map _ | .raw _ => false
  | _ => true

/-- How values are equal. The items of arrays and the values of maps are given in pairs. -/
inductive Same : Value → Value → Prop where
  | scalar {v : Value} (hscalar : v.isScalar = true) : Same v v
  | float {x y : Double} (hsame : x.same y = true) : Same (.float x) (.float y)
  | array {pairs : List (Value × Value)} (hpairs : ∀ p ∈ pairs, Same p.1 p.2) :
    Same (.array (pairs.map Prod.fst)) (.array (pairs.map Prod.snd))
  | map {pairs : Entries String (Value × Value)} (hpairs : ∀ e ∈ pairs, Same e.2.1 e.2.2) :
    Same (.map (pairs.mapValues Prod.fst)) (.map (pairs.mapValues Prod.snd))
  | raw {v w : StoreValue} (hsame : v.same w = true) : Same (.raw v) (.raw w)

mutual

theorem Same.of_same : ∀ {v w : Value}, v.same w = true → Same v w
  | .float x, w, hsame => by
    cases w with
    | float y => exact .float (by rwa [Value.same] at hsame)
    | _ => simp [Value.same] at hsame
  | .array items, w, hsame => by
    cases w with
    | array others =>
      obtain ⟨pairs, rfl, rfl, hpairs⟩ := Same.of_sameItems (by rwa [Value.same] at hsame : sameItems items others = true)
      exact .array hpairs
    | _ => simp [Value.same] at hsame
  | .map entries, w, hsame => by
    cases w with
    | map others =>
      obtain ⟨pairs, rfl, rfl, hpairs⟩ :=
        Same.of_sameEntries (by rwa [Value.same] at hsame : sameEntries entries others = true)
      exact .map hpairs
    | _ => simp [Value.same] at hsame
  | .raw v, w, hsame => by
    cases w with
    | raw w => exact .raw (by rwa [Value.same] at hsame)
    | _ => simp [Value.same] at hsame
  | .null, w, hsame | .string _, w, hsame | .integer _, w, hsame | .boolean _, w, hsame | .symbol _, w, hsame
  | .date _, w, hsame | .time _, w, hsame => by
    cases w <;> simp [Value.same] at hsame
    all_goals
      try subst hsame
      exact .scalar rfl

theorem Same.of_sameItems : ∀ {vs ws : List Value}, sameItems vs ws = true →
    ∃ pairs : List (Value × Value), vs = pairs.map Prod.fst ∧ ws = pairs.map Prod.snd ∧ ∀ p ∈ pairs, Same p.1 p.2
  | [], [], _ => ⟨[], rfl, rfl, nofun⟩
  | [], _ :: _, hsame | _ :: _, [], hsame => by simp [sameItems] at hsame
  | v :: vs, w :: ws, hsame => by
    obtain ⟨hhead, hrest⟩ := Bool.and_eq_true_iff.mp hsame
    obtain ⟨pairs, rfl, rfl, hpairs⟩ := Same.of_sameItems hrest
    exact ⟨(v, w) :: pairs, rfl, rfl, List.forall_mem_cons.mpr ⟨Same.of_same hhead, hpairs⟩⟩

theorem Same.of_sameEntries : ∀ {es fs : List (String × Value)}, sameEntries es fs = true →
    ∃ pairs : Entries String (Value × Value), es = pairs.mapValues Prod.fst ∧ fs = pairs.mapValues Prod.snd ∧
      ∀ e ∈ pairs, Same e.2.1 e.2.2
  | [], [], _ => ⟨[], rfl, rfl, nofun⟩
  | [], _ :: _, hsame | _ :: _, [], hsame => by simp [sameEntries] at hsame
  | (j, v) :: es, (k, w) :: fs, hsame => by
    obtain ⟨hhead, hrest⟩ := Bool.and_eq_true_iff.mp hsame
    obtain ⟨hname, hvalue⟩ := Bool.and_eq_true_iff.mp hhead
    cases beq_iff_eq.mp hname
    obtain ⟨pairs, rfl, rfl, hpairs⟩ := Same.of_sameEntries hrest
    exact ⟨(j, v, w) :: pairs, rfl, rfl, List.forall_mem_cons.mpr ⟨Same.of_same hvalue, hpairs⟩⟩

end

theorem holdsNaN_toStored_of_isScalar {v : Value} (hscalar : v.isScalar = true) : v.toStored.holdsNaN = false := by
  cases v <;> first | rfl | cases hscalar

/-- The generic conversion takes equal values to equal ones. -/
theorem Same.toStored {v w : Value} (hsame : Same v w) : v.toStored.same w.toStored = true := by
  induction hsame with
  | scalar hscalar => exact StoreValue.same_self (holdsNaN_toStored_of_isScalar hscalar)
  | float hsame => simpa [Value.toStored, StoreValue.same] using hsame
  | array _ ih =>
    simp only [Value.toStored, toStoredItems_eq_map, List.map_map, StoreValue.same]
    exact StoreValue.sameItems_map_iff.mpr ih
  | map _ ih =>
    simp only [Value.toStored, toStoredEntries_eq_mapValues, Entries.mapValues_mapValues]
    exact StoreValue.document_same_of_forall ih
  | raw hsame => exact hsame

end Value

end DocQuery
