import Mathlib.Data.List.Sort
import DocQuery.Collection.Retrieval
import DocQuery.Proofs.StoreValue.Order

/-!
# Sorting by insertion

A collection sorts the documents it found by putting each in front of those that it comes before. Where the
fields to sort by compare the documents consistently the result is the one that any stable sort gives: it is in
order, and it leaves documents that tie in the order that they had, in descending sorts as well. Consistency is
asked of the documents that are sorted and of nothing else, since doubles that are no numbers and integers past
the exact doubles can break it. Where it is broken, a stable sort is not bound to any order, nor to an answer.
-/

namespace DocQuery

/-! ### Inserting into lists -/

section Insertion

variable {α : Type} {r : α → α → Prop} [DecidableRel r]

/-- Members that are to be kept stay in place if the inserted one goes before all of them. -/
private theorem filter_orderedInsert {keep : α → Bool} {a : α} {l : List α}
    (htied : ∀ b ∈ l, keep a = true → keep b = true → r a b) :
    (l.orderedInsert r a).filter keep = (a :: l).filter keep := by
  induction l with
  | nil => rfl
  | cons b rest ih =>
    rw [List.orderedInsert_cons]
    by_cases hab : r a b
    · rw [if_pos hab]
    · rw [if_neg hab, List.filter_cons, ih fun c hc => htied c (List.mem_cons_of_mem b hc)]
      by_cases ha : keep a = true
      · have hb : ¬ keep b = true := fun hb => hab (htied b List.mem_cons_self ha hb)
        rw [List.filter_cons_of_pos ha, List.filter_cons_of_pos ha, if_neg hb, List.filter_cons_of_neg hb]
      · rw [List.filter_cons_of_neg ha, List.filter_cons_of_neg ha, List.filter_cons]

/-- Members that tie with each other keep their order. -/
private theorem filter_insertionSort {keep : α → Bool} {l : List α}
    (htied : ∀ a ∈ l, ∀ b ∈ l, keep a = true → keep b = true → r a b) :
    (l.insertionSort r).filter keep = l.filter keep := by
  induction l with
  | nil => rfl
  | cons a rest ih =>
    have hrest := ih fun b hb c hc => htied b (List.mem_cons_of_mem a hb) c (List.mem_cons_of_mem a hc)
    rw [List.insertionSort_cons, filter_orderedInsert, List.filter_cons, hrest, ← List.filter_cons]
    exact fun b hb => htied a List.mem_cons_self b (List.mem_cons_of_mem a ((List.mem_insertionSort r).mp hb))

/-- Inserting sorts a list whose own members are compared consistently. -/
private theorem pairwise_insertionSort {l : List α} (htotal : ∀ a b, r a b ∨ r b a)
    (htrans : ∀ a ∈ l, ∀ b ∈ l, ∀ c ∈ l, r a b → r b c → r a c) : (l.insertionSort r).Pairwise r := by
  let within (a b : { a // a ∈ l }) : Prop := r a.1 b.1
  have : Std.Total within := ⟨fun a b => htotal a.1 b.1⟩
  have : IsTrans _ within := ⟨fun a b c => htrans a.1 a.2 b.1 b.2 c.1 c.2⟩
  have hsorted : (l.attach.insertionSort within).Pairwise within := List.pairwise_insertionSort within l.attach
  have hmembers : (l.attach.insertionSort within).map Subtype.val = l.insertionSort r := by
    rw [List.map_insertionSort within r Subtype.val l.attach fun _ _ _ _ => Iff.rfl, List.attach_map_subtype_val]
  rw [← hmembers, List.pairwise_map]
  exact hsorted

/-- A list that is in order is told by its members and by the order in which those that tie with each other stand. -/
private theorem eq_of_pairwise_of_tied {l l' : List α} (hperm : l.Perm l') (htotal : ∀ a b, r a b ∨ r b a)
    (hl : l.Pairwise r) (hl' : l'.Pairwise r)
    (htied : ∀ e ∈ l, l.filter (fun a => r e a ∧ r a e) = l'.filter fun a => r e a ∧ r a e) : l = l' := by
  have hrefl : ∀ a, r a a := fun a => (htotal a a).elim id id
  induction l generalizing l' with
  | nil => exact hperm.nil_eq
  | cons a rest ih =>
    cases l' with
    | nil => exact absurd hperm.length_eq (Nat.succ_ne_zero _)
    | cons b rest' =>
      obtain ⟨ha, hrest⟩ := List.pairwise_cons.mp hl
      obtain ⟨hb, hrest'⟩ := List.pairwise_cons.mp hl'
      -- Each of the two heads comes before the other one, and so they stand for the same tie.
      have hab : r a b := by
        rcases List.mem_cons.mp (hperm.mem_iff.mpr List.mem_cons_self) with rfl | hmem
        · exact hrefl b
        · exact ha b hmem
      have hba : r b a := by
        rcases List.mem_cons.mp (hperm.mem_iff.mp List.mem_cons_self) with rfl | hmem
        · exact hrefl a
        · exact hb a hmem
      have hheads := htied a List.mem_cons_self
      simp only [List.filter_cons, hrefl a, hab, hba, and_self, decide_true, if_true] at hheads
      obtain rfl := (List.cons.inj hheads).1
      refine congrArg (a :: ·) (ih hperm.cons_inv hrest hrest' fun e he => ?_)
      have hties := htied e (List.mem_cons_of_mem a he)
      rw [List.filter_cons, List.filter_cons] at hties
      split at hties
      · exact (List.cons.inj hties).2
      · exact hties

end Insertion

namespace Retrieval

/-! ### The order of documents -/

theorem orient_swap (direction : Direction) (o : Ordering) : direction.orient o.swap = (direction.orient o).swap := by
  cases direction <;> rfl

theorem order_swap (keys : List SortKey) (d e : Document) : order keys e d = (order keys d e).swap := by
  induction keys with
  | nil => rfl
  | cons key rest ih =>
    rw [order, order, Ordering.swap_then, ih, StoreValue.sortOrder_swap (d.lookUp? key.field), orient_swap]

theorem order_total (keys : List SortKey) (d e : Document) :
    (order keys d e).isLE = true ∨ (order keys e d).isLE = true := by
  rw [order_swap keys d e]
  cases order keys d e <;> decide

theorem order_ne_lt_iff {keys : List SortKey} {d e : Document} :
    order keys d e ≠ .lt ↔ (order keys e d).isLE = true := by
  rw [order_swap keys d e]
  cases order keys d e <;> decide

/-! ### Consistent orders -/

/-- The fields order the documents of a list consistently. -/
def Orders (keys : List SortKey) (ds : List Document) : Prop :=
  ∀ d ∈ ds, ∀ e ∈ ds, ∀ f ∈ ds,
    (order keys d e).isLE = true → (order keys e f).isLE = true → (order keys d f).isLE = true

instance (keys : List SortKey) (ds : List Document) : Decidable (Orders keys ds) :=
  inferInstanceAs (Decidable (∀ d ∈ ds, ∀ e ∈ ds, ∀ f ∈ ds, _ → _ → _))

theorem Orders.filter {keys : List SortKey} {ds : List Document} (horders : Orders keys ds) (keep : Document → Bool) :
    Orders keys (ds.filter keep) :=
  fun d hd e he f hf => horders d (List.mem_of_mem_filter hd) e (List.mem_of_mem_filter he) f (List.mem_of_mem_filter hf)

/-- The values that documents have for a field are compared consistently. -/
def Sortable (field : String) (ds : List Document) : Prop :=
  ∀ d ∈ ds, ∀ e ∈ ds, ∀ f ∈ ds,
    (StoreValue.sortOrder (d.lookUp? field) (e.lookUp? field)).isLE = true →
    (StoreValue.sortOrder (e.lookUp? field) (f.lookUp? field)).isLE = true →
    (StoreValue.sortOrder (d.lookUp? field) (f.lookUp? field)).isLE = true

/-- Whether a comparison is transitive on the documents of a list. -/
private def TransOn (ds : List Document) (cmp : Document → Document → Ordering) : Prop :=
  ∀ d ∈ ds, ∀ e ∈ ds, ∀ f ∈ ds, (cmp d e).isLE = true → (cmp e f).isLE = true → (cmp d f).isLE = true

private theorem TransOn.orient {ds : List Document} {cmp : Document → Document → Ordering} (direction : Direction)
    (hswap : ∀ d e, cmp e d = (cmp d e).swap) (hcmp : TransOn ds cmp) :
    TransOn ds fun d e => direction.orient (cmp d e) := by
  cases direction with
  | ascending => exact hcmp
  | descending =>
    intro d hd e he f hf hde hef
    simp only [Direction.orient, ← hswap] at hde hef ⊢
    exact hcmp f hf e he d hd hef hde

/-- Where the first comparison ties the outer two of three documents, it ties all of them. -/
private theorem TransOn.andThen {ds : List Document} {cmp next : Document → Document → Ordering}
    (hswap : ∀ d e, cmp e d = (cmp d e).swap) (hcmp : TransOn ds cmp) (hnext : TransOn ds next) :
    TransOn ds fun d e => (cmp d e).then (next d e) := by
  intro d hd e he f hf hde hef
  rw [Ordering.isLE_then_iff_and] at hde hef ⊢
  have hdf := hcmp d hd e he f hf hde.1 hef.1
  refine ⟨hdf, ?_⟩
  rcases Ordering.isLE_iff_eq_lt_or_eq_eq.mp hdf with hlt | heq
  · exact Or.inl hlt
  · have hfd : (cmp f d).isLE = true := by rw [hswap, heq]; rfl
    have hed := hcmp e he f hf d hd hef.1 hfd
    have hfe := hcmp f hf d hd e he hfd hde.1
    rw [hswap] at hed hfe
    have hdetie := Ordering.eq_eq_of_isLE_of_isLE_swap hde.1 hed
    have heftie := Ordering.eq_eq_of_isLE_of_isLE_swap hef.1 hfe
    rw [hdetie] at hde
    rw [heftie] at hef
    simp only [reduceCtorEq, false_or] at hde hef
    exact Or.inr (hnext d hd e he f hf hde.2 hef.2)

/-- It is enough that each field does. -/
theorem orders_of_sortable {keys : List SortKey} {ds : List Document}
    (hsortable : ∀ key ∈ keys, Sortable key.field ds) : Orders keys ds := by
  induction keys with
  | nil => exact fun _ _ _ _ _ _ _ _ => rfl
  | cons key rest ih =>
    have hfield : ∀ d e : Document, StoreValue.sortOrder (e.lookUp? key.field) (d.lookUp? key.field) =
        (StoreValue.sortOrder (d.lookUp? key.field) (e.lookUp? key.field)).swap :=
      fun _ _ => StoreValue.sortOrder_swap _ _
    refine TransOn.andThen (fun d e => ?_) (TransOn.orient key.direction hfield (hsortable key List.mem_cons_self))
      (ih fun key hkey => hsortable key (List.mem_cons_of_mem _ hkey))
    rw [hfield, orient_swap]

/-! ### Sorted documents -/

theorem place_eq_orderedInsert (keys : List SortKey) (d : Document) (placed : List Document) :
    place keys d placed = placed.orderedInsert (fun d e => order keys d e ≠ .lt) d := by
  induction placed with
  | nil => rfl
  | cons e rest ih => rw [place, List.orderedInsert_cons, ih, ite_not]

theorem sorted_eq_reverse (keys : List SortKey) (ds : List Document) :
    sorted keys ds = (ds.reverse.insertionSort fun d e => order keys d e ≠ .lt).reverse := by
  rw [sorted, List.foldl_eq_foldr_reverse, List.insertionSort]
  congr 2
  funext d placed
  exact place_eq_orderedInsert keys d placed

theorem sorted_perm (keys : List SortKey) (ds : List Document) : (sorted keys ds).Perm ds := by
  rw [sorted_eq_reverse]
  exact (List.reverse_perm _).trans ((List.perm_insertionSort _ _).trans (List.reverse_perm ds))

theorem pairwise_sorted {keys : List SortKey} {ds : List Document} (horders : Orders keys ds) :
    (sorted keys ds).Pairwise fun d e => (order keys d e).isLE = true := by
  rw [sorted_eq_reverse, List.pairwise_reverse]
  refine (pairwise_insertionSort (fun d e => ?_) fun d hd e he f hf hde hef => ?_).imp order_ne_lt_iff.mp
  · exact (order_total keys e d).imp order_ne_lt_iff.mpr order_ne_lt_iff.mpr
  · rw [order_ne_lt_iff] at hde hef ⊢
    exact horders f (List.mem_reverse.mp hf) e (List.mem_reverse.mp he) d (List.mem_reverse.mp hd) hef hde

/-- Documents that tie with each other are left in the order that they had. -/
private theorem filter_sorted_of_tied {keys : List SortKey} {ds : List Document} {keep : Document → Bool}
    (htied : ∀ d ∈ ds, ∀ e ∈ ds, keep d = true → keep e = true → (order keys d e).isLE = true) :
    (sorted keys ds).filter keep = ds.filter keep := by
  rw [sorted_eq_reverse, List.filter_reverse, filter_insertionSort, List.filter_reverse, List.reverse_reverse]
  intro d hd e he hkeepd hkeepe
  exact order_ne_lt_iff.mpr (htied e (List.mem_reverse.mp he) d (List.mem_reverse.mp hd) hkeepe hkeepd)

/-- The outcome of a stable sort: the documents in order, and those that tie in the order that they had. -/
structure StablySorted (keys : List SortKey) (ds es : List Document) : Prop where
  perm : es.Perm ds
  inOrder : es.Pairwise fun d e => (order keys d e).isLE = true
  tied : ∀ e ∈ ds, es.filter (order keys · e = .eq) = ds.filter (order keys · e = .eq)

/-- Among documents that are ordered consistently, those that tie with one of them tie with each other. -/
private theorem Orders.isLE_of_tied {keys : List SortKey} {ds : List Document} (horders : Orders keys ds)
    {e : Document} (he : e ∈ ds) :
    ∀ d ∈ ds, ∀ f ∈ ds, decide (order keys d e = .eq) = true → decide (order keys f e = .eq) = true →
      (order keys d f).isLE = true := by
  intro d hd f hf hde hfe
  have hef : (order keys e f).isLE = true := by rw [order_swap keys f e, of_decide_eq_true hfe]; rfl
  exact horders d hd e he f hf (by rw [of_decide_eq_true hde]; rfl) hef

theorem stablySorted_sorted {keys : List SortKey} {ds : List Document} (horders : Orders keys ds) :
    StablySorted keys ds (sorted keys ds) where
  perm := sorted_perm keys ds
  inOrder := pairwise_sorted horders
  tied _ he := filter_sorted_of_tied (horders.isLE_of_tied he)

/-- Every stable sort gives the same list. -/
theorem StablySorted.eq_sorted {keys : List SortKey} {ds es : List Document} (hes : StablySorted keys ds es)
    (horders : Orders keys ds) : es = sorted keys ds := by
  have hsorted := stablySorted_sorted horders
  have hties : ∀ d e : Document, ((order keys e d).isLE = true ∧ (order keys d e).isLE = true) ↔ order keys d e = .eq := by
    intro d e
    rw [order_swap keys d e]
    cases order keys d e <;> decide
  refine eq_of_pairwise_of_tied (hes.perm.trans hsorted.perm.symm) (order_total keys) hes.inOrder hsorted.inOrder
    fun e he => ?_
  have he := hes.perm.mem_iff.mp he
  simp only [hties]
  exact (hes.tied e he).trans (hsorted.tied e he).symm

/-- Documents whose fields to sort by are compared consistently are sorted as if inserted one by one. -/
theorem sorted_eq_insertionSort {keys : List SortKey} {ds : List Document} (horders : Orders keys ds) :
    sorted keys ds = ds.insertionSort fun d e => (order keys d e).isLE = true := by
  have hinserted : StablySorted keys ds (ds.insertionSort fun d e => (order keys d e).isLE = true) :=
    ⟨List.perm_insertionSort _ ds, pairwise_insertionSort (order_total keys) horders,
      fun e he => filter_insertionSort (horders.isLE_of_tied he)⟩
  exact (hinserted.eq_sorted horders).symm

/-- Filtering before sorting gives what filtering after it does. -/
theorem filter_sorted {keys : List SortKey} {ds : List Document} (horders : Orders keys ds) (keep : Document → Bool) :
    (sorted keys ds).filter keep = sorted keys (ds.filter keep) := by
  have hsorted := stablySorted_sorted horders
  refine StablySorted.eq_sorted ⟨hsorted.perm.filter keep, hsorted.inOrder.filter keep, fun e he => ?_⟩
    (horders.filter keep)
  rw [List.filter_comm, hsorted.tied e (List.mem_of_mem_filter he), List.filter_comm]

/-! ### What a sort may come to -/

/-- What a stable sort of any kind may make of documents, where `none` is a failure. Where the fields do not order
the documents consistently, it may leave them in any order, or fail. -/
inductive SortOutcome (keys : List SortKey) (ds : List Document) : Option (List Document) → Prop where
  | inOrder {es : List Document} (horders : Orders keys ds) (hsorted : StablySorted keys ds es) :
    SortOutcome keys ds (some es)
  | inAnyOrder {es : List Document} (hinconsistent : ¬ Orders keys ds) (hperm : es.Perm ds) :
    SortOutcome keys ds (some es)
  | failed (hinconsistent : ¬ Orders keys ds) : SortOutcome keys ds none

theorem sortOutcome_sorted (keys : List SortKey) (ds : List Document) :
    SortOutcome keys ds (some (sorted keys ds)) := by
  by_cases horders : Orders keys ds
  · exact .inOrder horders (stablySorted_sorted horders)
  · exact .inAnyOrder horders (sorted_perm keys ds)

end Retrieval

end DocQuery
