import Mathlib.Data.List.Basic
import DocQuery.Proofs.Collection.Search
import DocQuery.Proofs.Selector.Rejection

/-!
# Removing, counting and finding agree

Removing goes through all documents and reports an error only at the end, when the documents that match are
gone already. It is still without effect when it fails: a selector that fails on one document matches no
other. So either the selector can be tested on every document, and removing takes away what finding gives, or
all requests fail with the one error of the selector and every document stays.
-/

namespace DocQuery

namespace Collection

/-- The selector fails on some document, and every document fails a demand or gets that error. -/
def Rejects (selector : Document) (e : SelectorError) (ds : List Document) : Prop :=
  (∃ d ∈ ds, d.satisfies selector = .error e) ∧
    ∀ d ∈ ds, d.satisfies selector = .ok false ∨ d.satisfies selector = .error e

theorem accepts_or_rejects (selector : Document) (ds : List Document) :
    Accepts selector ds ∨ ∃ e, Rejects selector e ds := by
  rcases Selector.uniform_satisfies selector with htotal | ⟨e, hsole⟩
  · exact .inl fun d _ => htotal d
  · by_cases hfails : ∃ d ∈ ds, d.satisfies selector = .error e
    · exact .inr ⟨e, hfails, fun d _ => hsole d⟩
    · exact .inl fun d hd => ⟨false, (hsole d).resolve_right fun herror => hfails ⟨d, hd, herror⟩⟩

/-! ### Selectors that are accepted -/

theorem firstError?_of_accepts {selector : Document} {ds : List Document} (haccepts : Accepts selector ds) :
    firstError? selector ds = none := by
  rw [firstError?, List.findSome?_eq_none_iff]
  intro d hd
  obtain ⟨matched, hmatched⟩ := haccepts d hd
  rw [hmatched]

theorem isKept_eq (selector d : Document) : isKept selector d = !d.isMatch selector := by
  rw [isKept, Document.isMatch]
  cases d.satisfies selector with
  | error e => rfl
  | ok matched => cases matched <;> rfl

theorem filter_isKept (selector : Document) (ds : List Document) :
    ds.filter (isKept selector) = ds.filter fun d => !d.isMatch selector :=
  List.filter_congr fun d _ => isKept_eq selector d

theorem remove_of_accepts {c : Collection} {selector : Document} (haccepts : Accepts selector c.documents) :
    c.remove selector = (.ok (c.documents.filter (·.isMatch selector)).length,
      { c with documents := c.documents.filter fun d => !d.isMatch selector }) := by
  have hsplit := List.length_eq_length_filter_add (l := c.documents) (·.isMatch selector)
  have hnumber : c.size - (c.documents.filter fun d => !d.isMatch selector).length =
      (c.documents.filter (·.isMatch selector)).length := by
    rw [size]
    omega
  rw [remove, firstError?_of_accepts haccepts, filter_isKept]
  simp only [hnumber]

/-! ### Selectors that are rejected -/

theorem matching_of_rejects {selector : Document} {e : SelectorError} {ds : List Document}
    (hrejects : Rejects selector e ds) : matching selector ds = .error e := by
  obtain ⟨⟨d, hd, hfails⟩, hsole⟩ := hrejects
  induction ds with
  | nil => cases hd
  | cons d' rest ih =>
    rw [matching]
    rcases hsole d' List.mem_cons_self with hd' | hd'
    · have hne : d ≠ d' := by
        rintro rfl
        rw [hfails] at hd'
        cases hd'
      have hrest := ih (fun f hf => hsole f (List.mem_cons_of_mem d' hf)) ((List.mem_cons.mp hd).resolve_left hne)
      rw [hd', hrest]
      rfl
    · rw [hd']
      rfl

theorem firstError?_of_rejects {selector : Document} {e : SelectorError} {ds : List Document}
    (hrejects : Rejects selector e ds) : firstError? selector ds = some e := by
  obtain ⟨⟨d, hd, hfails⟩, hsole⟩ := hrejects
  have hsome : (firstError? selector ds).isSome = true := by
    rw [firstError?, List.findSome?_isSome_iff]
    exact ⟨d, hd, by rw [hfails]; rfl⟩
  obtain ⟨e', he'⟩ := Option.isSome_iff_exists.mp hsome
  obtain ⟨d', hd', hfirst⟩ := List.exists_of_findSome?_eq_some he'
  rcases hsole d' hd' with hfailed | herror
  · rw [hfailed] at hfirst
    cases hfirst
  · rw [herror] at hfirst
    rw [he', ← hfirst]

theorem kept_of_rejects {selector : Document} {e : SelectorError} {ds : List Document}
    (hrejects : Rejects selector e ds) : ds.filter (isKept selector) = ds := by
  rw [List.filter_eq_self]
  intro d hd
  rcases hrejects.2 d hd with hd | hd
  · rw [isKept, hd]
    rfl
  · rw [isKept, hd]

theorem remove_of_rejects {c : Collection} {selector : Document} {e : SelectorError}
    (hrejects : Rejects selector e c.documents) : c.remove selector = (.error (.selector e), c) := by
  rw [remove, firstError?_of_rejects hrejects, kept_of_rejects hrejects]

/-! ### Requests without options -/

theorem apply_everything (ds : List Document) : Retrieval.everything.apply ds = ds :=
  (Retrieval.apply_sort [] ds).trans (Retrieval.sorted_nil ds)

theorem find_of_accepts {c : Collection} {selector : Document} (haccepts : Accepts selector c.documents) :
    (c.find selector []).1 = .ok (c.documents.filter (·.isMatch selector)) := by
  show c.search selector [] = _
  rw [search_of_accepts rfl haccepts, apply_everything]

theorem count_of_accepts {c : Collection} {selector : Document} (haccepts : Accepts selector c.documents) :
    (c.count selector []).1 = .ok (c.documents.filter (·.isMatch selector)).length := tally_of_accepts rfl haccepts

theorem find_of_rejects {c : Collection} {selector : Document} {e : SelectorError}
    (hrejects : Rejects selector e c.documents) : (c.find selector []).1 = .error (.selector e) := by
  show c.search selector [] = _
  rw [search, matching_of_rejects hrejects]
  rfl

theorem count_of_rejects {c : Collection} {selector : Document} {e : SelectorError}
    (hrejects : Rejects selector e c.documents) : (c.count selector []).1 = .error (.selector e) := by
  show c.tally selector [] = _
  rw [tally, matching_of_rejects hrejects]
  rfl

/-- What was removed is gone. -/
theorem count_remove_of_accepts {c : Collection} {selector : Document} (haccepts : Accepts selector c.documents) :
    ((c.remove selector).2.count selector []).1 = .ok 0 := by
  have hleft : Accepts selector (c.documents.filter fun d => !d.isMatch selector) :=
    fun d hd => haccepts d (List.mem_of_mem_filter hd)
  have hnone : (c.documents.filter fun d => !d.isMatch selector).filter (·.isMatch selector) = [] := by simp
  rw [remove_of_accepts haccepts, count_of_accepts hleft, hnone]
  rfl

/-- With a selector that some document has fail, removing, counting and finding all fail with its error, and
the documents stay. With any other they all succeed: removing leaves the documents that finding does not give,
in their order, and says how many it gives, as counting does, and counting once more gives none. This is so
since a selector has at most one error over all documents, and no match if it has one. -/
theorem remove_agrees :
    (∀ (c : Collection) (selector : Document),
      (∃ e : SelectorError, c.remove selector = (.error (.selector e), c) ∧
        (c.count selector []).1 = .error (.selector e) ∧ (c.find selector []).1 = .error (.selector e)) ∨
      ∃ found left : List Document, (c.find selector []).1 = .ok found ∧ (c.count selector []).1 = .ok found.length ∧
        c.remove selector = (.ok found.length, { c with documents := left }) ∧
        found = c.documents.filter (·.isMatch selector) ∧ left = c.documents.filter (fun d => !d.isMatch selector) ∧
        ((c.remove selector).2.count selector []).1 = .ok 0) ∧
    ∀ selector : Document,
      (∀ (d d' : Document) (e e' : SelectorError), d.satisfies selector = .error e →
        d'.satisfies selector = .error e' → e = e') ∧
      ∀ (d d' : Document) (e : SelectorError), d.satisfies selector = .error e →
        d'.satisfies selector ≠ .ok true := by
  refine ⟨fun c selector => ?_, fun selector => ?_⟩
  · rcases accepts_or_rejects selector c.documents with haccepts | ⟨e, hrejects⟩
    · exact .inr ⟨_, _, find_of_accepts haccepts, count_of_accepts haccepts, remove_of_accepts haccepts, rfl, rfl,
        count_remove_of_accepts haccepts⟩
    · exact .inl ⟨e, remove_of_rejects hrejects, count_of_rejects hrejects, find_of_rejects hrejects⟩
  · have huniform := Selector.uniform_satisfies selector
    exact ⟨fun _ _ _ _ => huniform.error_unique, fun _ d' _ ha => huniform.ne_true_of_error ha d'⟩

/-! ### Two people, and an operator that no store knows -/

def nearbyPeople : Collection where
  name := "people"
  documents := [[("_id", .int64 1), ("age", .int64 12)], [("_id", .int64 2), ("age", .int64 36)]]
  finds := 0
  counts := 0

/-- Turns down the first of the people, and fails on the second. -/
def nearbyAdults : Document := [("age", .document [("$gt", .int64 18)]), ("city", .document [("$near", .null)])]

theorem nearbyAdults_rejected :
    Document.satisfies [("_id", .int64 1), ("age", .int64 12)] nearbyAdults = .ok false ∧
    nearbyPeople.remove nearbyAdults = (.error (.selector (.unknownOperator "$near")), nearbyPeople) ∧
    ∀ d : Document, d.satisfies nearbyAdults ≠ .ok true := by
  have hfails : Document.satisfies [("_id", .int64 2), ("age", .int64 36)] nearbyAdults =
      .error (.unknownOperator "$near") := rfl
  have hfind : (nearbyPeople.find nearbyAdults []).1 = .error (.selector (.unknownOperator "$near")) := rfl
  refine ⟨rfl, ?_, fun d => (remove_agrees.2 nearbyAdults).2 _ d _ hfails⟩
  rcases remove_agrees.1 nearbyPeople nearbyAdults with ⟨e, hremove, -, hrejected⟩ | ⟨found, left, hfound, -⟩
  · rw [hfind] at hrejected
    cases hrejected
    exact hremove
  · rw [hfind] at hfound
    cases hfound

end Collection

end DocQuery
