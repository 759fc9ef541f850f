import DocQuery.Proofs.Collection.Search
import DocQuery.Proofs.Collection.StableSort
import DocQuery.Proofs.StoreValue.SortOrder

/-!
# Sorted searches

A search that is only sorted gives the documents that match, each before those that the fields to sort by put after it,
and those that tie on all of these fields in the order in which they were inserted. The first field that tells two
documents apart decides between them, and a descending field turns its own order round and not that of the ties. Where the
fields do not order the documents consistently, nothing is certain of what a search gives, not even that it gives an answer.
-/

namespace DocQuery

variable {keys : List SortKey} {d e : Document}

/-- How two documents stand by one field: as the values that they have for it are sorted, or the other way round. -/
def SortKey.order (key : SortKey) (d e : Document) : Ordering :=
  match key.direction with
  | .ascending => StoreValue.sortOrder (d.lookUp? key.field) (e.lookUp? key.field)
  | .descending => StoreValue.sortOrder (e.lookUp? key.field) (d.lookUp? key.field)

namespace Retrieval

/-- Two documents that none of the fields tells apart. -/
def Tied (keys : List SortKey) (d e : Document) : Prop := ∀ key ∈ keys, key.order d e = .eq

instance (keys : List SortKey) (d e : Document) : Decidable (Tied keys d e) :=
  inferInstanceAs (Decidable (∀ key ∈ keys, key.order d e = .eq))

/-- The first document may stand before the second: the first of the fields that tells them apart puts it first, or there
is none. -/
inductive Precedes : List SortKey → Document → Document → Prop where
  | tied {keys : List SortKey} {d e : Document} (htied : Tied keys d e) : Precedes keys d e
  | first {before after : List SortKey} {key : SortKey} {d e : Document} (hbefore : Tied before d e)
      (hfirst : key.order d e = .lt) : Precedes (before ++ key :: after) d e

/-! ### The order by several fields -/

theorem orient_eq_order (key : SortKey) (d e : Document) :
    key.direction.orient (StoreValue.sortOrder (d.lookUp? key.field) (e.lookUp? key.field)) = key.order d e := by
  rw [SortKey.order]
  cases key.direction with
  | ascending => rfl
  | descending => exact (StoreValue.sortOrder_swap _ _).symm

theorem order_cons (key : SortKey) (rest : List SortKey) (d e : Document) :
    order (key :: rest) d e = (key.order d e).then (order rest d e) := by
  rw [order, orient_eq_order]

theorem order_eq_iff : order keys d e = .eq ↔ Tied keys d e := by
  induction keys with
  | nil => exact iff_of_true rfl nofun
  | cons key rest ih => rw [order_cons, Ordering.then_eq_eq, ih, Tied, Tied, List.forall_mem_cons]

theorem precedes_cons_iff {key : SortKey} {rest : List SortKey} :
    Precedes (key :: rest) d e ↔ key.order d e = .lt ∨ key.order d e = .eq ∧ Precedes rest d e := by
  constructor
  · intro hprecedes
    generalize hkeys : key :: rest = keys at hprecedes
    cases hprecedes with
    | tied htied =>
      subst hkeys
      obtain ⟨hkey, hrest⟩ := List.forall_mem_cons.mp htied
      exact .inr ⟨hkey, .tied hrest⟩
    | @first before after decisive _ _ hbefore hfirst =>
      -- Either the first field decides, or it is among those that do not tell the documents apart.
      cases before with
      | nil =>
        cases hkeys
        exact .inl hfirst
      | cons first before =>
        cases hkeys
        obtain ⟨hkey, hbefore⟩ := List.forall_mem_cons.mp hbefore
        exact .inr ⟨hkey, .first hbefore hfirst⟩
  · rintro (hlt | ⟨heq, hrest⟩)
    · exact .first (show Tied [] d e from nofun) hlt
    · cases hrest with
      | tied htied => exact .tied (List.forall_mem_cons.mpr ⟨heq, htied⟩)
      | first hbefore hfirst => exact .first (List.forall_mem_cons.mpr ⟨heq, hbefore⟩) hfirst

/-- The order by a list of fields is lexicographic. -/
theorem isLE_order_iff : (order keys d e).isLE = true ↔ Precedes keys d e := by
  induction keys with
  | nil => exact iff_of_true rfl (.tied nofun)
  | cons key rest ih =>
    rw [order_cons, precedes_cons_iff, ← ih]
    cases key.order d e <;> simp

/-! ### Documents whose fields have a place -/

/-- The values that a document has for the fields to sort by have a place in the sort order. -/
def Placed (keys : List SortKey) (d : Document) : Prop := ∀ key ∈ keys, ∀ v ∈ d.lookUp? key.field, v.IsPlaced

instance (keys : List SortKey) (d : Document) : Decidable (Placed keys d) :=
  inferInstanceAs (Decidable (∀ key ∈ keys, ∀ v ∈ d.lookUp? key.field, v.IsPlaced))

theorem orders_of_placed {ds : List Document} (hplaced : ∀ d ∈ ds, Placed keys d) : Orders keys ds :=
  orders_of_sortable fun key hkey d hd e he f hf =>
    StoreValue.sortOrder_trans (hplaced d hd key hkey) (hplaced e he key hkey) (hplaced f hf key hkey)

theorem pairwise_precedes_sorted {ds : List Document} (hplaced : ∀ d ∈ ds, Placed keys d) :
    (sorted keys ds).Pairwise (Precedes keys) :=
  (pairwise_sorted (orders_of_placed hplaced)).imp isLE_order_iff.mp

end Retrieval

namespace Collection

open Retrieval

theorem find_of_sort {c : Collection} {selector options : Document}
    (hoptions : ofOptions options = .ok { everything with sort := keys }) (haccepts : Accepts selector c.documents) :
    (c.find selector options).1 = .ok (sorted keys (c.documents.filter (·.isMatch selector))) := by
  show c.search selector options = _
  rw [search_of_accepts hoptions haccepts, apply_sort]

/-- A search that is only sorted, by fields whose values have a place in the sort order, gives the documents that match
in lexicographic order, and leaves those that tie with one of them in the order of their insertion. -/
theorem sorted_search_is_stable (c : Collection) (selector options : Document) (keys : List SortKey)
    (hoptions : ofOptions options = .ok { everything with sort := keys }) (haccepts : Accepts selector c.documents)
    (hplaced : ∀ d ∈ c.documents, d.isMatch selector = true → Placed keys d) :
    ∃ found, (c.find selector options).1 = .ok found ∧
      found.Perm (c.documents.filter (·.isMatch selector)) ∧
      found.Pairwise (Precedes keys) ∧
      ∀ e ∈ c.documents, e.isMatch selector = true →
        found.filter (Tied keys · e) = (c.documents.filter (·.isMatch selector)).filter (Tied keys · e) := by
  have hmatching : ∀ d ∈ c.documents.filter (·.isMatch selector), Placed keys d := List.forall_mem_filter.mpr hplaced
  refine ⟨_, find_of_sort hoptions haccepts, sorted_perm _ _, pairwise_precedes_sorted hmatching, fun e he hmatch => ?_⟩
  have hties := (stablySorted_sorted (orders_of_placed hmatching)).tied e (List.mem_filter.mpr ⟨he, hmatch⟩)
  simpa only [order_eq_iff] using hties

/-! ### What a find may come to -/

/-- The outcomes that a find request may have with a stable sort of any kind, where `none` is a failure of the sort. -/
inductive FindOutcome (c : Collection) (selector options : Document) :
    Option (Except StoreError (List Document)) → Prop where
  | malformed {e : OptionsError} (hoptions : ofOptions options = .error e) :
    FindOutcome c selector options (some (.error (.options e)))
  | rejected {r : Retrieval} {e : SelectorError} (hoptions : ofOptions options = .ok r)
    (hmatching : matching selector c.documents = .error e) :
    FindOutcome c selector options (some (.error (.selector e)))
  | found {r : Retrieval} {ds es : List Document} (hoptions : ofOptions options = .ok r)
    (hmatching : matching selector c.documents = .ok ds) (hsort : SortOutcome r.sort ds (some es)) :
    FindOutcome c selector options (some (.ok ((slice r.skip r.limit es).map (project r.fields))))
  | failed {r : Retrieval} {ds : List Document} (hoptions : ofOptions options = .ok r)
    (hmatching : matching selector c.documents = .ok ds) (hsort : SortOutcome r.sort ds none) :
    FindOutcome c selector options none

/-- What a find request gives is one of its outcomes. -/
theorem findOutcome_find (c : Collection) (selector options : Document) :
    c.FindOutcome selector options (some (c.find selector options).1) := by
  show c.FindOutcome selector options (some (c.search selector options))
  rw [search]
  cases hoptions : ofOptions options with
  | error e => exact .malformed hoptions
  | ok r =>
    cases hmatching : matching selector c.documents with
    | error e => exact .rejected hoptions hmatching
    | ok ds => exact .found hoptions hmatching (sortOutcome_sorted r.sort ds)

section Accepted

variable {c : Collection} {selector options : Document} {r : Retrieval}

end Accepted

/-! ### Books by year and author -/

def book (author : String) (published : List (String × StoreValue)) : Document :=
  ("by", .document [("name", .string author)]) :: published

/-- Two books of one author and one year, which is kept in different widths, around one without a year. -/
def books : Collection :=
  ⟨"books", [book "Eco" [("year", .int32 1980)], book "Calvino" [], book "Eco" [("year", .int64 1980)],
    book "Eco" [("year", .int32 1988)]], 0, 0⟩

def latestFirst : List SortKey := [⟨"year", .descending⟩, ⟨"by.name", .ascending⟩]

def latestFirstOptions : Document :=
  [("sort", .array [.array [.string "year", .int32 (-1)], .array [.string "by.name", .string "asc"]])]

theorem books_sorted :
    ∃ found, (books.find [] latestFirstOptions).1 = .ok found ∧
      found.Pairwise (Precedes latestFirst) ∧
      found.filter (Tied latestFirst · (book "Eco" [("year", .int32 1980)])) =
        [book "Eco" [("year", .int32 1980)], book "Eco" [("year", .int64 1980)]] := by
  have hplaced : ∀ d ∈ books.documents, Placed latestFirst d := by decide +kernel
  obtain ⟨found, hfind, -, hordered, hties⟩ := sorted_search_is_stable books [] latestFirstOptions latestFirst
    rfl (fun d _ => ⟨true, rfl⟩) fun d hd _ => hplaced d hd
  exact ⟨found, hfind, hordered, hties _ List.mem_cons_self rfl⟩

end Collection

end DocQuery
