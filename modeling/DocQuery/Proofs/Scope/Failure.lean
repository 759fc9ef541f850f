import DocQuery.Proofs.Outcomes
import DocQuery.Proofs.Scope.Requests

/-!
# Where loading can fail

Loading a scope goes through five stages, and each of them can fail: compiling, setting up the indexes, asking
the store, which can refuse the request, and going through the documents found, of which any can be lost or be no
record. The failure of a load is that of the first stage, and among the documents that of the first one, whatever
records were built before it. A store in memory refuses a request because it cannot be reached or because the
request is malformed.
-/

namespace DocQuery

namespace Scope

variable {M : ModelKind} {B : Backend}

/-- The documents found before a position are got and are records. -/
def BuildsBefore (s : Scope M) (items : Cursor B) (i : Nat) : Prop :=
  ∀ j < i, ∀ item, items[j]? = some item → ∃ d r, item = .ok d ∧ s.model.record d = .ok r

/-- What the store answers to the query of a scope that can run. -/
structure Asks (s : Scope M) (w : World M B) (q : Query) (answer : Except B.Failure (Cursor B)) : Prop where
  compiles : s.compile = .ok q
  ready : w.IndexesReady s.model
  answered : (B.find w.store s.currentSource.key q.selector q.options).1 = answer

/-- The failures of a load, in the order of its stages. -/
inductive Fails (s : Scope M) (w : World M B) : QueryError M B → Prop where
  | uncompiled {e : CompileError} (hcompile : s.compile = .error e) : Fails s w (.compile e)
  | unprepared {q : Query} {e : M.Failure} (hcompile : s.compile = .ok q) (hfailure : w.indexFailure? s.model = some e) :
    Fails s w (.model e)
  | refused {q : Query} {e : B.Failure} (hasks : s.Asks w q (.error e)) : Fails s w (.storage e)
  | lost {q : Query} {items : Cursor B} {i : Nat} {e : B.Failure} (hasks : s.Asks w q (.ok items))
    (hbefore : s.BuildsBefore items i) (hitem : items[i]? = some (.error e)) : Fails s w (.storage e)
  | unbuilt {q : Query} {items : Cursor B} {i : Nat} {d : Document} {e : M.Failure} (hasks : s.Asks w q (.ok items))
    (hbefore : s.BuildsBefore items i) (hitem : items[i]? = some (.ok d)) (hrecord : s.model.record d = .error e) :
    Fails s w (.model e)

variable {s : Scope M} {w : World M B}

/-! ### The documents found -/

theorem recordOf_eq_ok_iff {item : Except B.Failure Document} {r : M.Record} :
    s.recordOf item = .ok r ↔ ∃ d, item = .ok d ∧ s.model.record d = .ok r := by
  cases item with
  | error e => exact ⟨nofun, fun ⟨_, hd, _⟩ => nomatch hd⟩
  | ok d =>
    rw [recordOf]
    constructor
    · exact fun hr => ⟨d, rfl, mapError_eq_ok hr⟩
    · rintro ⟨d', hd, hr⟩
      cases hd
      rw [hr]
      rfl

theorem buildsBefore_iff {items : Cursor B} {i : Nat} :
    s.BuildsBefore items i ↔ ∀ j < i, ∀ item, items[j]? = some item → ∃ r, s.recordOf item = .ok r := by
  refine forall_congr' fun j => forall_congr' fun _ => forall_congr' fun item => forall_congr' fun _ => ?_
  rw [exists_comm]
  exact exists_congr fun r => recordOf_eq_ok_iff.symm

/-- The documents found fail to become records at the first of them that is lost or is no record. -/
theorem mapM_recordOf_eq_error_iff {items : Cursor B} {e : QueryError M B} :
    items.mapM s.recordOf = .error e ↔ ∃ i, s.BuildsBefore items i ∧
      ((∃ e', items[i]? = some (.error e') ∧ e = .storage e') ∨
        ∃ d e', items[i]? = some (.ok d) ∧ s.model.record d = .error e' ∧ e = .model e') := by
  rw [mapM_eq_error_iff]
  refine exists_congr fun i => ?_
  rw [buildsBefore_iff]
  constructor
  · rintro ⟨item, hitem, hfails, hbefore⟩
    refine ⟨hbefore, ?_⟩
    cases item with
    | error e' =>
      cases hfails
      exact .inl ⟨e', hitem, rfl⟩
    | ok d =>
      rw [recordOf] at hfails
      cases hrecord : s.model.record d with
      | ok r =>
        rw [hrecord] at hfails
        cases hfails
      | error e' =>
        rw [hrecord] at hfails
        cases hfails
        exact .inr ⟨d, e', hitem, hrecord, rfl⟩
  · rintro ⟨hbefore, ⟨e', hitem, rfl⟩ | ⟨d, e', hitem, hrecord, rfl⟩⟩
    · exact ⟨_, hitem, rfl, hbefore⟩
    · exact ⟨_, hitem, by rw [recordOf, hrecord]; rfl, hbefore⟩

/-! ### Every stage -/

theorem Asks.fetch {q : Query} {answer : Except B.Failure (Cursor B)} (hasks : s.Asks w q answer) :
    (s.fetch w).1 = (answer.mapError .storage).bind fun items => items.mapM s.recordOf := by
  rw [fetch_answer, cursor_answer hasks.compiles hasks.ready, hasks.answered]

/-- Getting the records fails just in these ways. -/
theorem fetch_eq_error_iff {e : QueryError M B} : (s.fetch w).1 = .error e ↔ s.Fails w e := by
  constructor
  · intro hfetch
    cases hcompile : s.compile with
    | error reason =>
      rw [fetch_of_obstacle (obstacle?_of_compile_error w hcompile)] at hfetch
      cases hfetch
      exact .uncompiled hcompile
    | ok q =>
      cases hfailure : w.indexFailure? s.model with
      | some reason =>
        rw [fetch_of_obstacle (obstacle?_of_failure hcompile hfailure)] at hfetch
        cases hfetch
        exact .unprepared hcompile hfailure
      | none =>
        have hasks : s.Asks w q _ := ⟨hcompile, hfailure, rfl⟩
        rw [hasks.fetch] at hfetch
        cases hanswer : (B.find w.store s.currentSource.key q.selector q.options).1 with
        | error reason =>
          rw [hanswer] at hasks hfetch
          cases hfetch
          exact .refused hasks
        | ok items =>
          rw [hanswer] at hasks hfetch
          obtain ⟨i, hbefore, ⟨e', hitem, rfl⟩ | ⟨d, e', hitem, hrecord, rfl⟩⟩ := mapM_recordOf_eq_error_iff.mp hfetch
          · exact .lost hasks hbefore hitem
          · exact .unbuilt hasks hbefore hitem hrecord
  · intro hfails
    cases hfails with
    | uncompiled hcompile => exact fetch_of_obstacle (obstacle?_of_compile_error w hcompile)
    | unprepared hcompile hfailure => exact fetch_of_obstacle (obstacle?_of_failure hcompile hfailure)
    | refused hasks => rw [hasks.fetch]; rfl
    | lost hasks hbefore hitem =>
      rw [hasks.fetch]
      exact mapM_recordOf_eq_error_iff.mpr ⟨_, hbefore, .inl ⟨_, hitem, rfl⟩⟩
    | unbuilt hasks hbefore hitem hrecord =>
      rw [hasks.fetch]
      exact mapM_recordOf_eq_error_iff.mpr ⟨_, hbefore, .inr ⟨_, _, hitem, hrecord, rfl⟩⟩

theorem load_eq_error_iff {e : QueryError M B} (hunloaded : s.records = none) :
    (s.load w).1 = .error e ↔ s.Fails w e := by
  rw [load_answer w hunloaded, fetch_eq_error_iff]

end Scope

/-! ### A store in memory -/

theorem Connection.getElem?_cursorOver (c : Connection) (ds : List Document) (i : Nat) :
    (c.cursorOver ds)[i]? = ds[i]?.map fun d => if c.breaksAt = some i then .error (.cursorLost i) else .ok d := by
  rw [cursorOver, List.getElem?_mapIdx]

/-- A find request to a store in memory fails if there is no connection that can be reached, or if the collection
rejects it. -/
theorem Database.find_eq_error_iff {db : Database} {key : String} {selector options : Document} {e : StorageError} :
    (db.find key selector options).1 = .error e ↔
      (∀ c, db.connections.get? key = some c → c.reachable = false) ∧ e = .connectionRefused ∨
        ∃ c reason, db.connections.get? key = some c ∧ c.reachable = true ∧
          c.collection.search selector options = .error reason ∧ e = .rejected reason := by
  cases hconnection : db.connections.get? key with
  | none =>
    rw [find, hconnection]
    constructor
    · intro he
      cases he
      refine .inl ⟨fun c hc => ?_, rfl⟩
      cases hc
    · rintro (⟨-, rfl⟩ | ⟨c, reason, hc, -⟩)
      · rfl
      · cases hc
  | some c =>
    rw [find_of_connection hconnection]
    cases hreachable : c.reachable with
    | false =>
      rw [Connection.find_of_unreachable hreachable]
      constructor
      · intro he
        cases he
        refine .inl ⟨fun c' hc' => ?_, rfl⟩
        cases hc'
        exact hreachable
      · rintro (⟨-, rfl⟩ | ⟨c', reason, hc', hreached, -⟩)
        · rfl
        · cases hc'
          rw [hreachable] at hreached
          cases hreached
    | true =>
      rw [Connection.find_of_reachable hreachable]
      constructor
      · intro he
        cases hsearch : c.collection.search selector options with
        | ok ds =>
          rw [hsearch] at he
          cases he
        | error reason =>
          rw [hsearch] at he
          cases he
          exact .inr ⟨c, reason, rfl, hreachable, hsearch, rfl⟩
      · rintro (⟨hrefused, -⟩ | ⟨c', reason, hc', -, hsearch, rfl⟩)
        · cases hreachable.symm.trans (hrefused c rfl)
        · cases hc'
          rw [hsearch]
          rfl

/-- A scope whose store is in memory and that can run is refused for one of two reasons. -/
theorem Scope.asks_error_iff {M : ModelKind} {s : Scope M} {w : World M Database.backend} {q : Query} {e : StorageError}
    (hcompile : s.compile = .ok q) (hready : w.IndexesReady s.model) :
    s.Asks w q (.error e) ↔
      (∀ c, w.store.connections.get? s.currentSource.key = some c → c.reachable = false) ∧ e = .connectionRefused ∨
        ∃ c reason, w.store.connections.get? s.currentSource.key = some c ∧ c.reachable = true ∧
          c.collection.search q.selector q.options = .error reason ∧ e = .rejected reason :=
  Iff.trans ⟨Asks.answered, fun hanswered => ⟨hcompile, hready, hanswered⟩⟩ Database.find_eq_error_iff

end DocQuery
