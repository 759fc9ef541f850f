import DocQuery.Proofs.Query.Options
import DocQuery.Proofs.Scope.Calls
import DocQuery.Proofs.Scope.Copies

/-!
# Copies that take another part

A copy of a scope with another offset or limit compiles just if the scope does, to the same selector and the same fields
to sort by. So its collection matches and sorts the same documents again and only cuts them elsewhere. What part the
copy gets of the items that the scope gets is therefore settled by what the two slices make of one list.
-/

namespace DocQuery

theorem Collection.search_optionsOf (c : Collection) (selector : Document) (ps : Properties) (criteria : Criteria)
    (keys : List SortKey) : c.search selector (Query.optionsOf ps criteria keys) =
      ((matching selector c.documents).mapError .selector).map (Query.retrieval ps criteria keys).apply := by
  rw [search, Retrieval.ofOptions_optionsOf]
  show ((matching selector c.documents).mapError StoreError.selector >>= _) = _
  cases matching selector c.documents <;> rfl

theorem Collection.length_matching_le {selector : Document} {ds found : List Document}
    (hmatching : matching selector ds = .ok found) : found.length ≤ ds.length := by
  induction ds generalizing found with
  | nil =>
    cases hmatching
    exact Nat.le_refl 0
  | cons d rest ih =>
    obtain ⟨matched, -, hrest⟩ := bind_eq_ok hmatching
    obtain ⟨others, hothers, hdone⟩ := bind_eq_ok hrest
    have hlength := ih hothers
    cases hdone
    cases matched with
    | true => exact Nat.succ_le_succ hlength
    | false => exact Nat.le_succ_of_le hlength

theorem Connection.find_sliced {c : Connection} {selector : Document} {ps : Properties} {criteria other : Criteria}
    {keys : List SortKey} {part : Cursor Database.backend → Cursor Database.backend}
    (hpart : ∀ ds, Collection.matching selector c.collection.documents = .ok ds →
      c.cursorOver ((Query.retrieval ps other keys).apply ds) =
        part (c.cursorOver ((Query.retrieval ps criteria keys).apply ds))) :
    (c.find selector (Query.optionsOf ps other keys)).1 =
      (c.find selector (Query.optionsOf ps criteria keys)).1.map part := by
  cases hreachable : c.reachable with
  | false =>
    rw [find_of_unreachable hreachable, find_of_unreachable hreachable]
    rfl
  | true =>
    rw [find_of_reachable hreachable, find_of_reachable hreachable, Collection.search_optionsOf,
      Collection.search_optionsOf]
    cases hmatching : Collection.matching selector c.collection.documents with
    | error e => rfl
    | ok ds => exact congrArg Except.ok (hpart ds hmatching)

namespace Scope

variable {M : ModelKind} {s : Scope M} {w : World M Database.backend}

theorem compile_sliced {q : Query} (offset limit : Option Nat) (hcompile : s.compile = .ok q) :
    ∃ selector keys, q = ⟨selector, Query.optionsOf s.model.properties s.criteria keys⟩ ∧ (s.sliced offset limit).compile =
      .ok ⟨selector, Query.optionsOf s.model.properties (s.sliced offset limit).criteria keys⟩ := by
  obtain ⟨selector, keys, hselector, hkeys, rfl⟩ := Query.compile_eq_ok hcompile
  exact ⟨selector, keys, rfl, Query.compile_of_resolved (c := (s.sliced offset limit).criteria) hselector hkeys⟩

/-- The copy gets a part of what the scope gets, if the slices of the documents found stand so to each other. -/
theorem cursor_sliced {offset limit : Option Nat} {part : Cursor Database.backend → Cursor Database.backend}
    (hpart : ∀ (c : Connection) (selector : Document) (keys : List SortKey) (ds : List Document),
      w.store.connections.get? s.currentSource.key = some c →
      Collection.matching selector c.collection.documents = .ok ds →
      c.cursorOver ((Query.retrieval s.model.properties (s.sliced offset limit).criteria keys).apply ds) =
        part (c.cursorOver ((Query.retrieval s.model.properties s.criteria keys).apply ds))) :
    ((s.sliced offset limit).cursor w).1 = (s.cursor w).1.map part := by
  cases hcompile : s.compile with
  | error e =>
    rw [cursor_of_obstacle (obstacle?_of_compile_error w hcompile),
      cursor_of_obstacle (obstacle?_of_compile_error w (compile_sliced_eq_error_iff.mpr hcompile))]
    rfl
  | ok q =>
    obtain ⟨selector, keys, rfl, hsliced⟩ := compile_sliced offset limit hcompile
    cases hfailure : w.indexFailure? s.model with
    | some e =>
      rw [cursor_of_obstacle (obstacle?_of_failure hcompile hfailure),
        cursor_of_obstacle (obstacle?_of_failure hsliced hfailure)]
      rfl
    | none =>
      rw [cursor_answer hcompile hfailure, cursor_answer hsliced hfailure]
      show ((w.store.find s.currentSource.key _ _).1).mapError _ =
        (((w.store.find s.currentSource.key _ _).1).mapError _).map _
      cases hconnection : w.store.connections.get? s.currentSource.key with
      | none =>
        rw [Database.find, Database.find, hconnection]
        rfl
      | some c =>
        rw [Database.find_of_connection hconnection, Database.find_of_connection hconnection]
        show ((c.find selector _).1).mapError _ = _
        rw [Connection.find_sliced fun ds => hpart c selector keys ds hconnection]
        cases (c.find selector (Query.optionsOf s.model.properties s.criteria keys)).1 <;> rfl

end Scope

end DocQuery
