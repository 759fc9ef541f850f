import DocQuery.Proofs.Collection.Search
import DocQuery.Proofs.Entries.Writing
import DocQuery.Proofs.Outcomes

/-!
# Selectors as conjunctions

A document matches a selector just if it meets each of its demands, so what matches is up to the demands and not to their
order. The order only decides which of several malformed demands is reported, and whether an earlier demand turns a
document down before a malformed one is tested.
-/

namespace DocQuery

namespace Selector

variable {ε α : Type}

theorem allOk_singleton (test : α → Except ε Bool) (x : α) : allOk test [x] = test x := by
  rw [allOk]
  split
  · next hx => rw [hx, allOk]
  · rfl

theorem allOk_congr {test other : α → Except ε Bool} {l : List α} (htests : ∀ a ∈ l, test a = other a) :
    allOk test l = allOk other l := by
  induction l with
  | nil => rfl
  | cons a rest ih =>
    rw [List.forall_mem_cons] at htests
    rw [allOk, allOk, htests.1, ih htests.2]

theorem mapError_allOk_congr {ε' : Type} {describe : ε → ε'} {test other : α → Except ε Bool} {l : List α}
    (htests : ∀ a ∈ l, (test a).mapError describe = (other a).mapError describe) :
    (allOk test l).mapError describe = (allOk other l).mapError describe := by
  induction l with
  | nil => rfl
  | cons a rest ih =>
    have hstep : ∀ test : α → Except ε Bool,
        allOk test (a :: rest) = test a >>= fun passed => if passed then allOk test rest else .ok false := by
      intro test
      rw [allOk]
      cases test a with
      | error e => rfl
      | ok passed => cases passed <;> rfl
    obtain ⟨ha, hrest⟩ := List.forall_mem_cons.mp htests
    rw [hstep test, hstep other]
    refine mapError_bind_congr ha fun passed => ?_
    cases passed with
    | false => rfl
    | true => exact ih hrest

theorem allOk_map {β : Type} (test : α → Except ε Bool) (f : β → α) (l : List β) :
    allOk test (l.map f) = allOk (fun b => test (f b)) l := by
  induction l with
  | nil => rfl
  | cons b rest ih => rw [List.map_cons, allOk, allOk, ih]

theorem allOk_eq_true_iff {test : α → Except ε Bool} {l : List α} : allOk test l = .ok true ↔ ∀ x ∈ l, test x = .ok true := by
  induction l with
  | nil => simp [allOk]
  | cons x rest ih =>
    rw [allOk, List.forall_mem_cons, ← ih]
    constructor
    · intro hall
      split at hall
      · next hx => exact ⟨hx, hall⟩
      · next hx => exact absurd hall hx
    · rintro ⟨hx, hrest⟩
      rw [hx]
      exact hrest

theorem allOk_total {test : α → Except ε Bool} {l : List α}
    (htests : ∀ a ∈ l, ∃ passed, test a = .ok passed) : ∃ passed, allOk test l = .ok passed := by
  induction l with
  | nil => exact ⟨true, rfl⟩
  | cons a rest ih =>
    rw [List.forall_mem_cons] at htests
    obtain ⟨passed, ha⟩ := htests.1
    rw [allOk, ha]
    cases passed with
    | false => exact ⟨false, rfl⟩
    | true => exact ih htests.2

/-- The tests of a second list are made of what passes those of the first. -/
theorem allOk_append (test : α → Except ε Bool) (l rest : List α) :
    allOk test (l ++ rest) = match allOk test l with
      | .ok true => allOk test rest
      | other => other := by
  induction l with
  | nil => rfl
  | cons x l ih =>
    rw [List.cons_append, allOk, allOk, ih]
    cases test x with
    | error e => rfl
    | ok passed => cases passed <;> rfl

/-- A demand made of one operator applies it. -/
theorem meets_operator (value : Option StoreValue) (c : Comparison) (operand : StoreValue) :
    meets value (.document [(c.token, operand)]) = evaluate value c operand := by
  have hoperators : isOperators [(c.token, operand)] = true := by
    have htoken : c.token.toList.head? = some '$' := by cases c <;> decide +kernel
    simp [isOperators, htoken]
  rw [meets, if_pos hoperators, allOk_singleton, evaluateToken, Comparison.ofToken?_token]

end Selector

namespace Document

/-- A name without points is a path of one part. -/
theorem lookUp?_of_plain (d : Document) {path : String} (hpath : '.' ∉ path.toList) :
    d.lookUp? path = d.get? path := by
  rw [lookUp?, pathParts, List.splitOn_eq_singleton hpath, List.map_singleton, String.ofList_toList]
  simp [StoreValue.follow?, StoreValue.child?]

variable {d : Document} {selector narrower : Document}

theorem isMatch_iff : d.isMatch selector = true ↔ d.satisfies selector = .ok true := by
  rw [isMatch]
  split
  · next hmatched => simp [hmatched]
  · next hother => simpa using hother

/-- Which documents match is up to what the selector asks under each name. -/
theorem satisfies_eq_true_iff (hkeys : selector.keys.Nodup) :
    d.satisfies selector = .ok true ↔
      ∀ name demand, selector.get? name = some demand → Selector.meets (d.lookUp? name) demand = .ok true := by
  rw [satisfies, Selector.allOk_eq_true_iff]
  constructor
  · exact fun hall name demand hdemand => hall (name, demand) (Entries.mem_of_get? hdemand)
  · exact fun hall e he => hall e.1 e.2 (Entries.get?_of_mem hkeys he)

theorem isMatch_congr (hkeys : selector.keys.Nodup) (hothers : narrower.keys.Nodup)
    (hdemands : ∀ name, selector.get? name = narrower.get? name) : d.isMatch selector = d.isMatch narrower := by
  rw [Bool.eq_iff_iff, isMatch_iff, isMatch_iff, satisfies_eq_true_iff hkeys, satisfies_eq_true_iff hothers]
  simp only [hdemands]

/-- Demands that follow others are tested on the documents that meet those, and leave of them the ones that match both. -/
theorem satisfies_append {matched also : Bool} (hmatched : d.satisfies selector = .ok matched)
    (halso : d.satisfies narrower = .ok also) : d.satisfies (selector ++ narrower) = .ok (matched && also) := by
  rw [satisfies, Selector.allOk_append]
  rw [satisfies] at hmatched halso
  rw [hmatched, halso]
  cases matched <;> rfl

theorem isMatch_append {matched also : Bool} (hmatched : d.satisfies selector = .ok matched)
    (halso : d.satisfies narrower = .ok also) :
    d.isMatch (selector ++ narrower) = (d.isMatch selector && d.isMatch narrower) := by
  rw [isMatch_of_satisfies (satisfies_append hmatched halso), isMatch_of_satisfies hmatched, isMatch_of_satisfies halso]

end Document

namespace Collection

variable {selector narrower : Document} {ds : List Document}

/-- A collection that gives an answer could test the selector on all of its documents. -/
theorem accepts_of_matching {found : List Document} (hmatching : matching selector ds = .ok found) :
    Accepts selector ds := by
  induction ds generalizing found with
  | nil => exact fun d hd => absurd hd List.not_mem_nil
  | cons d rest ih =>
    obtain ⟨matched, hmatched, hrest⟩ := bind_eq_ok hmatching
    obtain ⟨others, hothers, -⟩ := bind_eq_ok hrest
    exact List.forall_mem_cons.mpr ⟨⟨matched, hmatched⟩, ih hothers⟩

theorem Accepts.append (haccepts : Accepts selector ds) (hnarrower : Accepts narrower ds) :
    Accepts (selector ++ narrower) ds := by
  intro d hd
  obtain ⟨matched, hmatched⟩ := haccepts d hd
  obtain ⟨also, halso⟩ := hnarrower d hd
  exact ⟨matched && also, Document.satisfies_append hmatched halso⟩

/-- The documents that match two selectors in one are those of the first that match the second as well. -/
theorem filter_append (haccepts : Accepts selector ds) (hnarrower : Accepts narrower ds) :
    ds.filter (·.isMatch (selector ++ narrower)) = (ds.filter (·.isMatch selector)).filter (·.isMatch narrower) := by
  rw [List.filter_filter]
  refine List.filter_congr fun d hd => ?_
  obtain ⟨matched, hmatched⟩ := haccepts d hd
  obtain ⟨also, halso⟩ := hnarrower d hd
  rw [Document.isMatch_append hmatched halso, Bool.and_comm]

end Collection

end DocQuery
