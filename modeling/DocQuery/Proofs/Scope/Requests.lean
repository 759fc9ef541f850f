import DocQuery.Proofs.Database.Requests
import DocQuery.Proofs.Outcomes
import DocQuery.Scope.Execution

/-!
# What running a scope does

Running a scope compiles it, sets up the indexes of its model and sends one request, in this order, and
stops at the first of the three that fails. The rest of the theory knows these functions by what is said
here: what keeps a scope from sending its request, and what the answer is if nothing does.
-/

namespace DocQuery

namespace Scope

variable {M : ModelKind} {B : Backend} {s : Scope M} {w : World M B} {q : Query}

/-! ### Preparing -/

/-- What keeps a scope from sending its request. -/
def obstacle? (s : Scope M) (w : World M B) : Option (QueryError M B) :=
  match s.compile with
  | .error e => some (.compile e)
  | .ok _ => (w.indexFailure? s.model).map .model

theorem obstacle?_of_compile_error {e : CompileError} (w : World M B) (hcompile : s.compile = .error e) :
    s.obstacle? w = some (.compile e) := by
  rw [obstacle?, hcompile]

theorem obstacle?_of_compile (w : World M B) (hcompile : s.compile = .ok q) :
    s.obstacle? w = (w.indexFailure? s.model).map .model := by
  rw [obstacle?, hcompile]

theorem obstacle?_of_failure {e : M.Failure} (hcompile : s.compile = .ok q)
    (hfailure : w.indexFailure? s.model = some e) : s.obstacle? w = some (.model e) := by
  rw [obstacle?_of_compile w hcompile, hfailure]
  rfl

theorem runs_of_no_obstacle (hobstacle : s.obstacle? w = none) :
    ∃ q, s.compile = .ok q ∧ w.IndexesReady s.model := by
  cases hcompile : s.compile with
  | error e =>
    rw [obstacle?_of_compile_error w hcompile] at hobstacle
    cases hobstacle
  | ok q =>
    rw [obstacle?_of_compile w hcompile, Option.map_eq_none_iff] at hobstacle
    exact ⟨q, rfl, hobstacle⟩

theorem prepare_of_compile_error {e : CompileError} (w : World M B) (hcompile : s.compile = .error e) :
    s.prepare w = (.error (.compile e), w) := by
  rw [prepare, hcompile]

/-- A scope that compiles has the indexes of its model set up, and is ready to send its request if that goes well. -/
theorem prepare_of_compile (w : World M B) (hcompile : s.compile = .ok q) :
    s.prepare w = (match w.indexFailure? s.model with
      | none => .ok q
      | some e => .error (.model e), w.withIndexes s.model) := by
  rw [prepare, hcompile, World.indexFailure?, Schema.indexFailure?]
  cases hstate : s.model.initialized (w.indexState s.model) with
  | true =>
    rw [World.withIndexes, hstate]
    rfl
  | false =>
    simp only [w.setUpIndexes_eq hstate, Bool.false_eq_true, if_false]
    cases (s.model.setUp (w.indexState s.model)).1 <;> rfl

theorem prepare_of_ready (hcompile : s.compile = .ok q) (hready : w.IndexesReady s.model) :
    s.prepare w = (.ok q, w.withIndexes s.model) := by
  rw [prepare_of_compile w hcompile, show w.indexFailure? s.model = none from hready]

theorem prepare_of_failure {e : M.Failure} (hcompile : s.compile = .ok q)
    (hfailure : w.indexFailure? s.model = some e) : s.prepare w = (.error (.model e), w.withIndexes s.model) := by
  rw [prepare_of_compile w hcompile, hfailure]

/-- A scope that meets an obstacle is not prepared. -/
theorem prepare_of_obstacle {e : QueryError M B} (hobstacle : s.obstacle? w = some e) :
    s.prepare w = (.error e, (s.prepare w).2) := by
  cases hcompile : s.compile with
  | error reason =>
    rw [obstacle?_of_compile_error w hcompile] at hobstacle
    cases hobstacle
    rw [prepare_of_compile_error w hcompile]
  | ok q =>
    rw [obstacle?_of_compile w hcompile, Option.map_eq_some_iff] at hobstacle
    obtain ⟨reason, hfailure, rfl⟩ := hobstacle
    rw [prepare_of_failure hcompile hfailure]

/-! ### Sending the request -/

/-- What a scope that can run gets is up to the store. -/
theorem cursor_answer (hcompile : s.compile = .ok q) (hready : w.IndexesReady s.model) :
    (s.cursor w).1 = (B.find w.store s.currentSource.key q.selector q.options).1.mapError .storage := by
  rw [cursor, prepare_of_ready hcompile hready, ← w.store_withIndexes s.model]
  rfl

theorem count_answer (hcompile : s.compile = .ok q) (hready : w.IndexesReady s.model) :
    (s.count w).1 = (B.count w.store s.currentSource.key q.selector q.options).1.mapError .storage := by
  rw [count, prepare_of_ready hcompile hready, ← w.store_withIndexes s.model]
  rfl

theorem cursor_of_obstacle {e : QueryError M B} (hobstacle : s.obstacle? w = some e) : (s.cursor w).1 = .error e := by
  rw [cursor, prepare_of_obstacle hobstacle]

theorem count_of_obstacle {e : QueryError M B} (hobstacle : s.obstacle? w = some e) : (s.count w).1 = .error e := by
  rw [count, prepare_of_obstacle hobstacle]

theorem sent_of_cursor {items : Cursor B} (hcursor : (s.cursor w).1 = .ok items) :
    ∃ q, s.compile = .ok q ∧ w.IndexesReady s.model ∧
      (B.find w.store s.currentSource.key q.selector q.options).1 = .ok items := by
  cases hobstacle : s.obstacle? w with
  | some e =>
    rw [cursor_of_obstacle hobstacle] at hcursor
    cases hcursor
  | none =>
    obtain ⟨q, hcompile, hready⟩ := runs_of_no_obstacle hobstacle
    rw [cursor_answer hcompile hready] at hcursor
    exact ⟨q, hcompile, hready, mapError_eq_ok hcursor⟩

theorem ready_of_fetch {rs : List M.Record} (hfetch : (s.fetch w).1 = .ok rs) : w.IndexesReady s.model := by
  obtain ⟨items, hcursor, -⟩ := bind_eq_ok hfetch
  exact (sent_of_cursor hcursor).choose_spec.2.1

/-! ### Loading -/

theorem fetch_answer (s : Scope M) (w : World M B) :
    (s.fetch w).1 = (s.cursor w).1.bind fun items => items.mapM s.recordOf := rfl

theorem fetch_of_obstacle {e : QueryError M B} (hobstacle : s.obstacle? w = some e) : (s.fetch w).1 = .error e := by
  rw [fetch_answer, cursor_of_obstacle hobstacle]
  rfl

theorem load_of_records {rs : List M.Record} (w : World M B) (hrecords : s.records = some rs) :
    s.load w = (.ok rs, s, w) := by
  rw [load, hrecords]

theorem load_of_fetched {rs : List M.Record} (hunloaded : s.records = none) (hfetch : (s.fetch w).1 = .ok rs) :
    s.load w = (.ok rs, { s with records := some rs }, (s.fetch w).2) := by
  rw [load, hunloaded]
  generalize s.fetch w = outcome at hfetch ⊢
  obtain ⟨answer, w'⟩ := outcome
  cases hfetch
  rfl

theorem load_of_failed {e : QueryError M B} (hunloaded : s.records = none) (hfetch : (s.fetch w).1 = .error e) :
    s.load w = (.error e, s, (s.fetch w).2) := by
  rw [load, hunloaded]
  generalize s.fetch w = outcome at hfetch ⊢
  obtain ⟨answer, w'⟩ := outcome
  cases hfetch
  rfl

theorem load_answer (w : World M B) (hunloaded : s.records = none) : (s.load w).1 = (s.fetch w).1 := by
  cases hfetch : (s.fetch w).1 with
  | ok rs => rw [load_of_fetched hunloaded hfetch]
  | error e => rw [load_of_failed hunloaded hfetch]

theorem load_of_obstacle {e : QueryError M B} (hunloaded : s.records = none) (hobstacle : s.obstacle? w = some e) :
    (s.load w).1 = .error e := by
  rw [load_answer w hunloaded, fetch_of_obstacle hobstacle]

/-- A load that succeeds leaves the scope with the records that it answered. -/
theorem records_of_load {rs : List M.Record} (hload : (s.load w).1 = .ok rs) : (s.load w).2.1.records = some rs := by
  cases hrecords : s.records with
  | some cached =>
    rw [load_of_records w hrecords] at hload ⊢
    cases hload
    exact hrecords
  | none =>
    rw [load_answer w hrecords] at hload
    rw [load_of_fetched hrecords hload]

/-! ### Reaching a collection in memory -/

section Memory

variable {w : World M Database.backend} {c : Connection}

/-- The find request of a scope reaches a collection. -/
structure Reaches (s : Scope M) (w : World M Database.backend) (q : Query) (c : Connection) : Prop where
  compiles : s.compile = .ok q
  ready : w.IndexesReady s.model
  connected : w.store.connections.get? s.currentSource.key = some c
  reachable : c.reachable = true

theorem fetch_of_reaches (hreaches : s.Reaches w q c) :
    (s.fetch w).1 = match c.collection.search q.selector q.options with
      | .ok ds => (c.cursorOver ds).mapM s.recordOf
      | .error reason => .error (.storage (.rejected reason)) := by
  rw [fetch_answer, cursor_answer hreaches.compiles hreaches.ready]
  show Except.bind (Except.mapError _ (Database.find w.store _ _ _).1) _ = _
  rw [Database.find_of_connection hreaches.connected, Connection.find_of_reachable hreaches.reachable]
  cases c.collection.search q.selector q.options <;> rfl

end Memory

end Scope

end DocQuery
