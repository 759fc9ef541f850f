import DocQuery.Collection.Basic

/-!
# Searching with an accepted selector

A selector is tested on the documents one by one, and a collection rejects it as soon as one of them
cannot be tested. When all can, matching is filtering, and a search gives what the decoded options make of
the filtered documents.
-/

namespace DocQuery

/-- Without fields to sort by, documents stay where they are. -/
theorem Retrieval.sorted_nil (ds : List Document) : sorted [] ds = ds := by
  have hplace (d : Document) (placed : List Document) : place [] d placed = d :: placed := by cases placed <;> rfl
  simp [sorted, hplace]

/-- A retrieval that only sorts gives the sorted documents as they are. -/
theorem Retrieval.apply_sort (keys : List SortKey) (ds : List Document) :
    Retrieval.apply { everything with sort := keys } ds = sorted keys ds := by
  have hproject : project [] = id := rfl
  rw [apply, everything, hproject, List.map_id, slice, if_pos rfl, List.drop_zero]

/-- Whether a document matches a selector that can be tested on it. -/
def Document.isMatch (d selector : Document) : Bool := d.satisfies selector matches .ok true

theorem Document.isMatch_of_satisfies {d selector : Document} {matched : Bool}
    (hmatched : d.satisfies selector = .ok matched) : d.isMatch selector = matched := by
  rw [isMatch, hmatched]
  cases matched <;> rfl

namespace Collection

/-- The selector can be tested on every document. -/
def Accepts (selector : Document) (ds : List Document) : Prop :=
  ∀ d ∈ ds, ∃ matched, d.satisfies selector = .ok matched

theorem matching_of_accepts {selector : Document} {ds : List Document} (haccepts : Accepts selector ds) :
    matching selector ds = .ok (ds.filter (·.isMatch selector)) := by
  induction ds with
  | nil => rfl
  | cons d rest ih =>
    obtain ⟨matched, hmatched⟩ := haccepts d List.mem_cons_self
    have hrest := ih fun e he => haccepts e (List.mem_cons_of_mem d he)
    rw [matching, hmatched, hrest, List.filter_cons, Document.isMatch_of_satisfies hmatched]
    cases matched <;> rfl

theorem search_of_accepts {c : Collection} {selector options : Document} {r : Retrieval}
    (hoptions : Retrieval.ofOptions options = .ok r) (haccepts : Accepts selector c.documents) :
    c.search selector options = .ok (r.apply (c.documents.filter (·.isMatch selector))) := by
  rw [search, hoptions, matching_of_accepts haccepts]
  rfl

theorem tally_of_accepts {c : Collection} {selector options : Document} {r : Retrieval}
    (hoptions : Retrieval.ofOptions options = .ok r) (haccepts : Accepts selector c.documents) :
    c.tally selector options = .ok (c.documents.filter (·.isMatch selector)).length := by
  rw [tally, hoptions, matching_of_accepts haccepts]
  rfl

end Collection

end DocQuery
