import DocQuery.Proofs.Double.Integers
import DocQuery.Proofs.StoreValue.Order

/-!
# The sort order as an order of places

Every value that is sorted has a place: the rank of its type, then the number that it stands for, then its text. The sort
order of two values is the order of their places, so it is transitive and values of one place are alike to it. Three
kinds of values are left out. What is not a number ties with every number, a symbol ties with every text, and an integer
of more than 53 bits is rounded before it is compared with a double but not before it is compared with an integer; each
of them can tie with two values that do not tie.
-/

namespace DocQuery

/-! ### Comparing numbers -/

theorem compare_mul_right {k : Int} (hk : 0 < k) (m n : Int) : compare (m * k) (n * k) = compare m n := by
  simp only [Int.compare_eq_ite_lt, Int.mul_lt_mul_right hk]

theorem compare_natCast (m n : Nat) : compare (m : Int) (n : Int) = compare m n := by
  simp only [Int.compare_eq_ite_lt, Nat.compare_eq_ite_lt, Int.ofNat_lt]

namespace StoreValue

variable {a b c : StoreValue} {v w u : Option StoreValue}

/-- A value of a type whose values are compared with one another, and a number if it is a double. -/
def IsOrdered : StoreValue → Prop
  | .null | .boolean _ | .int32 _ | .int64 _ | .string _ | .dateTime _ | .objectId _ => True
  | .double x => x.isNaN = false
  | _ => False

instance : DecidablePred IsOrdered
  | .null | .boolean _ | .int32 _ | .int64 _ | .string _ | .dateTime _ | .objectId _ => inferInstanceAs (Decidable True)
  | .double x => inferInstanceAs (Decidable (x.isNaN = false))
  | .undefined | .symbol _ | .array _ | .document _ | .regex _ _ | .javascript _ | .scopedJavascript _ _ | .timestamp _ _
  | .binary _ _ | .decimal128 _ | .minKey | .maxKey => inferInstanceAs (Decidable False)

/-- A value that has a place in the sort order. -/
def IsPlaced : StoreValue → Prop
  | .double x => x.isNaN = false
  | .int32 n => n.toInt.natAbs ≤ 2 ^ 53
  | .int64 n => n.toInt.natAbs ≤ 2 ^ 53
  | .symbol _ => False
  | _ => True

instance : DecidablePred IsPlaced
  | .double x => inferInstanceAs (Decidable (x.isNaN = false))
  | .int32 n | .int64 n => inferInstanceAs (Decidable (n.toInt.natAbs ≤ 2 ^ 53))
  | .symbol _ => inferInstanceAs (Decidable False)
  | .null | .undefined | .boolean _ | .string _ | .dateTime _ | .objectId _ | .array _ | .document _ | .regex _ _
  | .javascript _ | .scopedJavascript _ _ | .timestamp _ _ | .binary _ _ | .decimal128 _ | .minKey | .maxKey =>
    inferInstanceAs (Decidable True)

/-! ### Places -/

structure Place where
  /-- The rank of the type. -/
  rank : Nat
  /-- The number that the value stands for, by which values of one type are ordered. -/
  level : Int
  text : String

namespace Place

/-- The order of two places of one rank. -/
def within : Place → Place → Ordering := compareLex (compareOn level) (compareOn text)

def order : Place → Place → Ordering := compareLex (compareOn rank) within

instance : Std.TransCmp within := inferInstanceAs (Std.TransCmp (compareLex (compareOn level) (compareOn text)))

instance : Std.TransCmp order := inferInstanceAs (Std.TransCmp (compareLex (compareOn rank) within))

theorem within_of_text_eq {p q : Place} (htext : p.text = q.text) : p.within q = compare p.level q.level := by
  rw [within, compareLex, compareOn, compareOn, htext, Std.ReflOrd.compare_self, Ordering.then_eq]

theorem within_of_level_eq {p q : Place} (hlevel : p.level = q.level) : p.within q = compare p.text q.text := by
  rw [within, compareLex, compareOn, compareOn, hlevel, Std.ReflOrd.compare_self, Ordering.eq_then]

theorem order_of_rank_eq {p q : Place} (hrank : p.rank = q.rank) : p.order q = p.within q := by
  rw [order, compareLex, compareOn, Nat.compare_eq_eq.mpr hrank, Ordering.eq_then]

theorem order_of_rank_ne {p q : Place} (hrank : p.rank ≠ q.rank) : p.order q = compare p.rank q.rank := by
  rw [order, compareLex, compareOn]
  cases hcompare : compare p.rank q.rank with
  | eq => exact absurd (Nat.compare_eq_eq.mp hcompare) hrank
  | lt | gt => rfl

end Place

/-- The number that a value stands for; numbers are counted in units of the smallest double. -/
def level : StoreValue → Int
  | .int32 n => n.toInt * (1 <<< 1074 : Nat)
  | .int64 n => n.toInt * (1 <<< 1074 : Nat)
  | .double x => x.scaled
  | .objectId id => id.place
  | .boolean b => b.toNat
  | .dateTime t => t.toInt
  | _ => 0

def letters : StoreValue → String
  | .string s => s
  | _ => ""

def place : Option StoreValue → Place
  | none => ⟨0, 0, ""⟩
  | some a => ⟨rank (some a), a.level, a.letters⟩

/-- The ranks whose values all tie. -/
def tiedRanks : List Nat := [0, 3, 4, 8]

theorem place_of_tied (hrank : rank v ∈ tiedRanks) : place v = ⟨rank v, 0, ""⟩ := by
  cases v with
  | none => rfl
  | some a =>
    cases a with
    | null | undefined | document | array | regex | javascript | scopedJavascript | timestamp | binary | decimal128
    | minKey | maxKey => rfl
    | int32 | int64 | double | string | symbol | objectId | boolean | dateTime => simp [rank, tiedRanks] at hrank

theorem rank_tied_of_not_ordered (ha : a.IsPlaced) (hordered : ¬ a.IsOrdered) : rank (some a) ∈ tiedRanks := by
  cases a with
  | undefined | document | array | regex | javascript | scopedJavascript | timestamp | binary | decimal128 | minKey
  | maxKey => simp [rank, tiedRanks]
  | double => exact absurd ha hordered
  | symbol => exact ha.elim
  | null | int32 | int64 | string | objectId | boolean | dateTime => exact absurd trivial hordered

/-! ### Comparable values -/

/-- Only values of an ordered type can be compared. -/
theorem compare?_of_not_ordered (hb : ¬ b.IsOrdered) : a.compare? b = none := by
  cases b with
  | undefined | symbol | document | array | regex | javascript | scopedJavascript | timestamp | binary | decimal128
  | minKey | maxKey => cases a <;> rfl
  | double y =>
    have hy : y.isNaN = true := by simpa [IsOrdered] using hb
    have hnone : ∀ x : Double, x.compare? y = none := fun x => by rw [Double.compare?, hy, Bool.or_true, if_pos rfl]
    cases a with
    | int32 | int64 | double => exact hnone _
    | _ => rfl
  | null | int32 | int64 | string | objectId | boolean | dateTime => exact absurd trivial hb

theorem rank_eq_of_compare? {o : Ordering} (hcompare : a.compare? b = some o) : rank (some a) = rank (some b) := by
  cases a <;> cases b <;> first | rfl | cases hcompare

theorem compare?_doubles {x y : Double} (hx : x.isNaN = false) (hy : y.isNaN = false) :
    x.compare? y = some (compare x.scaled y.scaled) := by
  rw [Double.compare?, hx, hy]
  rfl

theorem compare?_integers {m n : Int64} (hm : a.integer? = some m) (hn : b.integer? = some n) :
    a.compare? b = some (compare a.level b.level) := by
  have hlevel : ∀ {v : StoreValue} {k : Int64}, v.integer? = some k → v.level = k.toInt * (1 <<< 1074 : Nat) := by
    intro v k hk
    cases v <;> cases hk
    · rw [level, Int32.toInt_toInt64]
    · rfl
  rw [hlevel hm, hlevel hn, compare_mul_right (by decide +kernel)]
  cases a <;> cases hm <;> cases b <;> cases hn <;> rfl

theorem compare?_integer_double {m : Int} {y : Double} (hm : m.natAbs ≤ 2 ^ 53) (hy : y.isNaN = false) :
    (Double.ofInt m).compare? y = some (compare (m * (1 <<< 1074 : Nat)) y.scaled) := by
  rw [compare?_doubles (Double.isNaN_ofInt m) hy, Double.scaled_ofInt hm]

theorem compare?_double_integer {x : Double} {n : Int} (hx : x.isNaN = false) (hn : n.natAbs ≤ 2 ^ 53) :
    x.compare? (Double.ofInt n) = some (compare x.scaled (n * (1 <<< 1074 : Nat))) := by
  rw [compare?_doubles hx (Double.isNaN_ofInt n), Double.scaled_ofInt hn]

theorem eq_within_of_levels (hletters : a.letters = b.letters) (hcompare : a.compare? b = some (compare a.level b.level)) :
    a.compare? b = some ((place (some a)).within (place (some b))) := by
  rw [hcompare, Place.within_of_text_eq hletters]
  rfl

theorem eq_within_of_letters (hlevel : a.level = b.level) (hcompare : a.compare? b = some (compare a.letters b.letters)) :
    a.compare? b = some ((place (some a)).within (place (some b))) := by
  rw [hcompare, Place.within_of_level_eq hlevel]
  rfl

/-- Ordered values of one rank are compared as their places are. -/
theorem compare?_of_ordered (ha : a.IsPlaced) (hb : b.IsPlaced) (haordered : a.IsOrdered) (hbordered : b.IsOrdered)
    (hrank : rank (some a) = rank (some b)) : a.compare? b = some ((place (some a)).within (place (some b))) := by
  cases a with
  | null =>
    cases b with
    | null => exact eq_within_of_levels rfl rfl
    | undefined => exact hbordered.elim
    | _ => cases hrank
  | int32 m | int64 m =>
    cases b with
    | int32 n | int64 n => exact eq_within_of_levels rfl (compare?_integers rfl rfl)
    | double y => exact eq_within_of_levels rfl (compare?_integer_double ha hb)
    | _ => cases hrank
  | double x =>
    cases b with
    | int32 n | int64 n => exact eq_within_of_levels rfl (compare?_double_integer ha hb)
    | double y => exact eq_within_of_levels rfl (compare?_doubles ha hb)
    | _ => cases hrank
  | string s =>
    cases b with
    | string t => exact eq_within_of_letters rfl rfl
    | symbol => exact hbordered.elim
    | _ => cases hrank
  | objectId id =>
    cases b with
    | objectId id' => exact eq_within_of_levels rfl (congrArg some (compare_natCast ..).symm)
    | _ => cases hrank
  | boolean p =>
    cases b with
    | boolean q => exact eq_within_of_levels rfl (by cases p <;> cases q <;> rfl)
    | _ => cases hrank
  | dateTime t =>
    cases b with
    | dateTime t' => exact eq_within_of_levels rfl rfl
    | _ => cases hrank
  | undefined | symbol | document | array | regex | javascript | scopedJavascript | timestamp | binary | decimal128
  | minKey | maxKey => exact haordered.elim

/-! ### The sort order -/

theorem within_of_tied (hrank : rank v = rank w) (htied : rank v ∈ tiedRanks) : (place v).within (place w) = .eq := by
  have hplace : place v = place w := by rw [place_of_tied htied, place_of_tied (hrank ▸ htied), hrank]
  rw [hplace]
  exact Std.ReflCmp.compare_self

theorem tieBreak_eq_within (hv : ∀ a ∈ v, a.IsPlaced) (hw : ∀ b ∈ w, b.IsPlaced) (hrank : rank v = rank w) :
    tieBreak v w = (place v).within (place w) := by
  have hmissing : rank none ∈ tiedRanks := List.mem_cons_self
  cases v with
  | none => rw [within_of_tied hrank hmissing]; rfl
  | some a =>
    cases w with
    | none => rw [within_of_tied hrank (by rwa [hrank])]; rfl
    | some b =>
      rw [tieBreak]
      -- What is of no ordered type has a rank whose values all tie.
      by_cases hb : b.IsOrdered
      · by_cases ha : a.IsOrdered
        · rw [compare?_of_ordered (hv a rfl) (hw b rfl) ha hb hrank]
          rfl
        · rw [compare?_swap, compare?_of_not_ordered ha, within_of_tied hrank (rank_tied_of_not_ordered (hv a rfl) ha)]
          rfl
      · have htied := rank_tied_of_not_ordered (hw b rfl) hb
        rw [compare?_of_not_ordered hb, within_of_tied hrank (hrank ▸ htied)]
        rfl

/-- The sort order of values that have a place is the order of their places. -/
theorem sortOrder_eq_order (hv : ∀ a ∈ v, a.IsPlaced) (hw : ∀ b ∈ w, b.IsPlaced) :
    sortOrder v w = (place v).order (place w) := by
  have hranks : ∀ v : Option StoreValue, (place v).rank = rank v := fun v => by cases v <;> rfl
  by_cases hrank : rank v = rank w
  · rw [sortOrder, Place.order_of_rank_eq (by rw [hranks, hranks, hrank]), tieBreak_eq_within hv hw hrank,
      Nat.compare_eq_eq.mpr hrank, Ordering.eq_then]
  · rw [sortOrder, Place.order_of_rank_ne (by rwa [hranks, hranks]), hranks, hranks]
    cases hcompare : compare (rank v) (rank w) with
    | eq => exact absurd (Nat.compare_eq_eq.mp hcompare) hrank
    | lt | gt => rfl

theorem sortOrder_trans (hv : ∀ a ∈ v, a.IsPlaced) (hw : ∀ b ∈ w, b.IsPlaced) (hu : ∀ c ∈ u, c.IsPlaced)
    (hvw : (sortOrder v w).isLE = true) (hwu : (sortOrder w u).isLE = true) : (sortOrder v u).isLE = true := by
  rw [sortOrder_eq_order hv hw] at hvw
  rw [sortOrder_eq_order hw hu] at hwu
  rw [sortOrder_eq_order hv hu]
  exact Std.TransCmp.isLE_trans hvw hwu

theorem sortOrder_congr (hv : ∀ a ∈ v, a.IsPlaced) (hw : ∀ b ∈ w, b.IsPlaced) (hu : ∀ c ∈ u, c.IsPlaced)
    (htie : sortOrder v w = .eq) : sortOrder v u = sortOrder w u ∧ sortOrder u v = sortOrder u w := by
  rw [sortOrder_eq_order hv hw] at htie
  rw [sortOrder_eq_order hv hu, sortOrder_eq_order hw hu, sortOrder_eq_order hu hv, sortOrder_eq_order hu hw]
  exact ⟨Std.TransCmp.congr_left htie, Std.TransCmp.congr_right htie⟩

theorem sortOrder_total (v w : Option StoreValue) : (sortOrder v w).isLE = true ∨ (sortOrder w v).isLE = true := by
  rw [sortOrder_swap v w]
  cases sortOrder v w <;> simp

/-! ### The order of comparable values -/

theorem ordered_of_compare? {o : Ordering} (hcompare : a.compare? b = some o) : a.IsOrdered ∧ b.IsOrdered := by
  refine ⟨Classical.byContradiction fun ha => ?_, Classical.byContradiction fun hb => ?_⟩
  · rw [compare?_swap, compare?_of_not_ordered ha] at hcompare
    cases hcompare
  · rw [compare?_of_not_ordered hb] at hcompare
    cases hcompare

theorem eq_within_of_compare? {o : Ordering} (ha : a.IsPlaced) (hb : b.IsPlaced) (hcompare : a.compare? b = some o) :
    o = (place (some a)).within (place (some b)) := by
  obtain ⟨haordered, hbordered⟩ := ordered_of_compare? hcompare
  rw [compare?_of_ordered ha hb haordered hbordered (rank_eq_of_compare? hcompare)] at hcompare
  exact (Option.some.inj hcompare).symm

theorem compare?_trans {o p : Ordering} (ha : a.IsPlaced) (hb : b.IsPlaced) (hc : c.IsPlaced)
    (hab : a.compare? b = some o) (hbc : b.compare? c = some p) (ho : o.isLE = true) (hp : p.isLE = true) :
    ∃ q, a.compare? c = some q ∧ q.isLE = true := by
  have hrank := (rank_eq_of_compare? hab).trans (rank_eq_of_compare? hbc)
  refine ⟨_, compare?_of_ordered ha hc (ordered_of_compare? hab).1 (ordered_of_compare? hbc).2 hrank, ?_⟩
  rw [eq_within_of_compare? ha hb hab] at ho
  rw [eq_within_of_compare? hb hc hbc] at hp
  exact Std.TransCmp.isLE_trans ho hp

theorem compare?_congr (ha : a.IsPlaced) (hb : b.IsPlaced) (hc : c.IsPlaced) (hab : a.compare? b = some .eq) :
    a.compare? c = b.compare? c := by
  have hrank := rank_eq_of_compare? hab
  obtain ⟨haordered, hbordered⟩ := ordered_of_compare? hab
  by_cases hcordered : c.IsOrdered ∧ rank (some b) = rank (some c)
  · rw [compare?_of_ordered ha hc haordered hcordered.1 (hrank.trans hcordered.2),
      compare?_of_ordered hb hc hbordered hcordered.1 hcordered.2]
    exact congrArg some (Std.TransCmp.congr_left (eq_within_of_compare? ha hb hab).symm)
  · -- A third value of another type is compared with neither.
    have hnone : ∀ {d : StoreValue}, rank (some d) = rank (some b) → d.compare? c = none := by
      intro d hd
      cases hcompare : d.compare? c with
      | none => rfl
      | some o =>
        exact absurd ⟨(ordered_of_compare? hcompare).2, hd.symm.trans (rank_eq_of_compare? hcompare)⟩ hcordered
    rw [hnone hrank, hnone rfl]

/-! ### Equality of comparable values -/

theorem compare?_self (ha : a.IsOrdered) : a.compare? a = some .eq := by
  cases a with
  | null => rfl
  | boolean | int32 | int64 | string | dateTime | objectId => exact congrArg some Std.ReflOrd.compare_self
  | double => exact (compare?_doubles ha ha).trans (congrArg some Std.ReflOrd.compare_self)
  | _ => exact ha.elim

/-- The same values of an ordered type are one value, unless they are the two zeros. -/
theorem compare?_of_same (hb : b.IsOrdered) (hsame : a.same b = true) : a.compare? b = some .eq := by
  cases b with
  | null =>
    cases a with
    | null => rfl
    | _ => simp [same] at hsame
  | double y =>
    cases a with
    | double x =>
      rw [same] at hsame
      exact eq_of_beq hsame
    | _ => simp [same] at hsame
  | boolean | int32 | int64 | string | dateTime | objectId =>
    cases a <;> simp only [same, beq_iff_eq, Bool.false_eq_true] at hsame
    subst hsame
    exact compare?_self hb
  | _ => exact hb.elim

/-- A value equals one of an ordered type just if it is compared and ties with it. -/
theorem equals_of_ordered (hb : b.IsOrdered) : a.equals b = (a.compare? b).any (·.isEq) := by
  have hor : a.equals b = (a.compare? b == some .eq) := by
    rw [equals]
    cases hsame : a.same b with
    | false => rfl
    | true => rw [compare?_of_same hb hsame]; rfl
  rw [hor]
  cases a.compare? b with
  | none => rfl
  | some o => cases o <;> rfl

/-! ### The laws of both orders -/

/-- Turning a comparison round turns its answer round, for the sort order and for the order of comparable values, which
is defined both ways or neither. The sort order of values that have a place is transitive, and values that tie stand
alike to every third; so it is with values that can be compared. -/
theorem sorting_is_preorder :
    (∀ v w : Option StoreValue, sortOrder w v = (sortOrder v w).swap ∧
      ((sortOrder v w).isLE = true ∨ (sortOrder w v).isLE = true)) ∧
    (∀ a b : StoreValue, b.compare? a = (a.compare? b).map Ordering.swap ∧
      ((b.compare? a).isSome = true ↔ (a.compare? b).isSome = true)) ∧
    (∀ v w u : Option StoreValue, (∀ a ∈ v, a.IsPlaced) → (∀ b ∈ w, b.IsPlaced) → (∀ c ∈ u, c.IsPlaced) →
      ((sortOrder v w).isLE = true → (sortOrder w u).isLE = true → (sortOrder v u).isLE = true) ∧
      (sortOrder v w = .eq → sortOrder v u = sortOrder w u ∧ sortOrder u v = sortOrder u w)) ∧
    ∀ a b c : StoreValue, a.IsPlaced → b.IsPlaced → c.IsPlaced →
      (∀ o p, a.compare? b = some o → b.compare? c = some p → o.isLE = true → p.isLE = true →
        ∃ q, a.compare? c = some q ∧ q.isLE = true) ∧
      (a.compare? b = some .eq → a.compare? c = b.compare? c) := by
  refine ⟨fun v w => ⟨sortOrder_swap v w, sortOrder_total v w⟩, fun a b => ⟨compare?_swap a b, ?_⟩, ?_, ?_⟩
  · rw [compare?_swap, Option.isSome_map]
  · exact fun v w u hv hw hu => ⟨sortOrder_trans hv hw hu, sortOrder_congr hv hw hu⟩
  · exact fun a b c ha hb hc => ⟨fun o p => compare?_trans ha hb hc, compare?_congr ha hb hc⟩

/-! ### The largest integer that has a place -/

def exactLimit : StoreValue := .int64 9007199254740992

def exactLimitAsDouble : StoreValue := .double (Double.ofMagnitude false 0x4340000000000000)

def infinite : StoreValue := .double (Double.ofMagnitude false Double.infinityBits)

theorem exactLimit_ties :
    sortOrder (some exactLimit) (some infinite) = sortOrder (some exactLimitAsDouble) (some infinite) ∧
    (sortOrder none (some infinite)).isLE = true ∧
    infinite.compare? exactLimit = (exactLimit.compare? infinite).map Ordering.swap := by
  have hlimit : ∀ a ∈ some exactLimit, a.IsPlaced := by decide
  have hdouble : ∀ a ∈ some exactLimitAsDouble, a.IsPlaced := by decide
  have hinfinite : ∀ a ∈ some infinite, a.IsPlaced := by decide
  refine ⟨((sorting_is_preorder.2.2.1 _ _ _ hlimit hdouble hinfinite).2 (by decide +kernel)).1, ?_,
    (sorting_is_preorder.2.1 _ _).1⟩
  exact (sorting_is_preorder.2.2.1 none (some exactLimit) _ nofun hlimit hinfinite).1 rfl (by decide +kernel)

/-- One more than the largest ties with its double as well. -/
example : sortOrder (some (.int64 9007199254740993)) (some exactLimitAsDouble) = .eq ∧
    sortOrder (some exactLimit) (some (.int64 9007199254740993)) = .lt := by decide +kernel

end StoreValue

end DocQuery
