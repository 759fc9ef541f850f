import DocQuery.Proofs.Query.PlainConditions
import DocQuery.Proofs.Selector.Width

/-!
# Queries whatever the width of integers

Conditions store integers with 64 bits, and a document that was stored by something else may have the same integers with
32. A query finds it all the same, as long as it compares no array or document that has integers as a whole. Each such
operand tells some document from the same document in the other width: one with copies of the operand, in a number that
keeps the array of the copies from being the operand itself.
-/

namespace DocQuery

open StoreValue

/-! ### Copies of a value -/

section Copies

variable {v v' w operand : StoreValue}

def StoreValue.copies (n : Nat) (v : StoreValue) : StoreValue := .array (List.replicate (n + 1) v)

theorem StoreValue.Widened.copies (hv : v.Widened v') (n : Nat) : (v.copies n).Widened (v'.copies n) := by
  have hpairs : ∀ p ∈ List.replicate (n + 1) (v, v'), Widened p.1 p.2 := by
    intro p hp
    rw [List.eq_of_mem_replicate hp]
    exact hv
  have harray := Widened.array hpairs
  rwa [List.map_replicate, List.map_replicate] at harray

theorem StoreValue.Widened.nest (hv : v.Widened v') (path : List String) : (v.nest path).Widened (v'.nest path) := by
  induction path with
  | nil => exact hv
  | cons part rest ih =>
    have hfields : ∀ e ∈ [(part, (v.nest rest, v'.nest rest))], Widened e.2.1 e.2.2 := List.forall_mem_singleton.mpr ih
    exact .document hfields

/-- There is a copy more than the operand has parts. -/
theorem StoreValue.same_copies_eq_false (operand v : StoreValue) : operand.same (v.copies operand.parts.length) = false := by
  rw [Bool.eq_false_iff]
  intro hsame
  cases operand with
  | array items =>
    rw [copies, same] at hsame
    have hlength := length_eq_of_sameItems hsame
    rw [List.length_replicate] at hlength
    exact absurd hlength (Nat.ne_of_lt (Nat.lt_succ_self _))
  | _ => simp [copies, same] at hsame

theorem Selector.holds_copies (v operand : StoreValue) :
    holds (some (v.copies operand.parts.length)) operand = v.equals operand := by
  rw [holds_some, same_copies_eq_false, Bool.and_false, Bool.or_false, StoreValue.copies, candidates, List.any_replicate]
  rfl

end Copies

/-- A value in whose parts there are integers of both widths tells some document from the same document in the other
width. -/
theorem Document.exists_told_apart {operand : StoreValue} (hnarrow : operand.nestsNarrow = true)
    (hnumbers : operand.holdsNaN = false) (hnames : operand.holdsSome repeatsName = false) (path : String) :
    ∃ d d' : Document, Widened (.document d) (.document d') ∧
      d.isMatch (Comparison.equal.selector path operand) ≠ d'.isMatch (Comparison.equal.selector path operand) := by
  have hholds : operand.holdsSome isNarrow = true := by
    rw [nestsNarrow] at hnarrow
    rw [holdsSome_eq, hnarrow, Bool.or_true]
  have hordered : ¬ operand.IsOrdered := by
    intro hordered
    cases operand <;> first | exact hordered | cases hnarrow
  obtain ⟨w, hwidened, -, hne⟩ := exists_differInWidth hholds hnames
  have hother : w.equals operand = false := by rw [equals, hne, compare?_of_not_ordered hordered]; rfl
  obtain ⟨part, rest, hparts⟩ := exists_pathParts path
  let holder (v : StoreValue) : Document := [(part, (v.copies operand.parts.length).nest rest)]
  have hmatch : ∀ v, (holder v).isMatch (Comparison.equal.selector path operand) = v.equals operand := by
    intro v
    rw [isMatch_equal, lookUp?_nest hparts, Selector.holds_copies]
  have hholders : ∀ {v v'}, v.Widened v' → Widened (.document (holder v)) (.document (holder v')) :=
    fun hv => (hv.copies _).nest (part :: rest)
  have hapart : (holder operand).isMatch (Comparison.equal.selector path operand) ≠
      (holder w).isMatch (Comparison.equal.selector path operand) := by
    rw [hmatch, hmatch, equals_self hnumbers, hother]
    exact Bool.noConfusion
  rcases hwidened with hwidened | hwidened
  · exact ⟨_, _, hholders hwidened, hapart⟩
  · exact ⟨_, _, hholders hwidened, hapart.symm⟩

namespace Query

/-- Widening integers of a document and of a selector leaves what matching them gives, the message of an error included,
unless the selector compares as a whole a value that has integers of both widths in its parts. Each value of this kind
that equals itself, and has no name twice in a document, is told by some document from the same document in the other
width. In particular, an integer kept with 32 bits is found by the conditions of its number, which are stored with 64. -/
theorem widths_alike_unless_nested (d d' selector selector' : Document) (hd : Widened (.document d) (.document d'))
    (hselector : Widened (.document selector) (.document selector')) :
    ((∀ operand ∈ selector.equated, operand.nestsNarrow = false) →
      (d.satisfies selector).mapError SelectorError.message =
        (d'.satisfies selector').mapError SelectorError.message) ∧
    (∀ path operand, operand.nestsNarrow = true → operand.holdsNaN = false → operand.holdsSome repeatsName = false →
      ∃ e e' : Document, Widened (.document e) (.document e') ∧
        e.isMatch (Comparison.equal.selector path operand) ≠ e'.isMatch (Comparison.equal.selector path operand)) ∧
    (∀ (ps : Properties) name v (n : Int32), ps.toStore name v = .int64 n.toInt64 →
      d.lookUp? (ps.resolve name) = some (.int32 n) →
      Finds ps [(.field name, v)] d ∧ Finds ps [(.operator ⟨name, .known .equal⟩, v)] d ∧
        Finds ps [(.operator ⟨name, .known .oneOf⟩, .array [v])] d) := by
  refine ⟨Document.satisfies_widened hd hselector, fun path operand hnarrow hnumbers hnames =>
    Document.exists_told_apart hnarrow hnumbers hnames path, fun ps name v n hstored hkept => ?_⟩
  have hholds : Selector.holds (d.lookUp? (ps.resolve name)) (ps.toStore name v) = true := by
    rw [hstored, hkept, Selector.holds_widened (.some (.integer n)) (.refl _) rfl]
    exact Selector.holds_self rfl
  refine ⟨finds_plain hholds fun fields hfields => ?_, finds_equal hholds, finds_oneOf hholds⟩
  rw [hstored] at hfields
  cases hfields

/-! ### Ages in both widths -/

def narrowAges : Document := [("oldest", .int32 40), ("ages", .array [.int32 36, .int32 40])]

def wideAges : Document := [("oldest", .int32 40), ("ages", .array [.int64 36, .int64 40])]

theorem narrowAges_widened : Widened (.document narrowAges) (.document wideAges) := by
  have hitems : ∀ p ∈ [(int32 36, int64 36), (int32 40, int64 40)], Widened p.1 p.2 :=
    List.forall_mem_cons.mpr ⟨.integer 36, List.forall_mem_singleton.mpr (.integer 40)⟩
  have hfields : ∀ e ∈ [("oldest", int32 40, int32 40), ("ages", array [.int32 36, .int32 40], array [.int64 36, .int64 40])],
      Widened e.2.1 e.2.2 :=
    List.forall_mem_cons.mpr ⟨.refl _, List.forall_mem_singleton.mpr (.array hitems)⟩
  exact .document hfields

/-- The list of this operator stands for its items, and no item has parts. -/
def bothAges (first second : StoreValue) : Document :=
  [("ages", .document [("$all", .array [first, second]), ("$size", .int64 2)])]

theorem ages_alike :
    (narrowAges.satisfies (bothAges (.int64 40) (.int64 36))).mapError SelectorError.message =
      (wideAges.satisfies (bothAges (.int64 40) (.int64 36))).mapError SelectorError.message ∧
    (∃ e e' : Document, Widened (.document e) (.document e') ∧
      e.isMatch (Comparison.equal.selector "ages.0" (.array [.int64 36])) ≠
        e'.isMatch (Comparison.equal.selector "ages.0" (.array [.int64 36]))) ∧
    Finds .initial [(.field "oldest", .integer 40)] narrowAges := by
  obtain ⟨halike, hapart, hfinds⟩ := widths_alike_unless_nested narrowAges wideAges
    (bothAges (.int64 40) (.int64 36)) _ narrowAges_widened (.refl _)
  have hkept : narrowAges.lookUp? "oldest" = some (.int32 40) :=
    (Document.lookUp?_of_plain narrowAges (by decide)).trans rfl
  exact ⟨halike (by decide +kernel), hapart _ _ (by decide +kernel) rfl (by decide +kernel),
    (hfinds .initial "oldest" (.integer 40) 40 rfl hkept).1⟩

theorem ages_told_apart :
    ¬ ∀ d d' selector selector' : Document, Widened (.document d) (.document d') →
      Widened (.document selector) (.document selector') →
      (d.satisfies selector).mapError SelectorError.message =
        (d'.satisfies selector').mapError SelectorError.message := by
  intro hclaim
  have hages : Except.ok false = Except.ok true := hclaim _ _ wideAges wideAges narrowAges_widened (.refl _)
  cases hages

end Query

end DocQuery
