import DocQuery.Proofs.Scope.Requests

/-!
# The calls that running a scope makes

Whatever a scope is run for, it does one thing to the world: nothing if it does not compile, and otherwise it has
the indexes of its model set up unless they are, and sends one request if that went well. Loading, counting and
looking for one document differ in the kind of the request and in the copy of the scope that they run. What a run
leaves differs from what was there in the state of the indexes of one model and in what the request did to the store.
-/

namespace DocQuery

namespace Scope

variable {M : ModelKind} {B : Backend}

/-- The world after a scope was run with one request of a kind. -/
def executed (kind : RequestKind) (s : Scope M) (w : World M B) : World M B :=
  match s.compile with
  | .error _ => w
  | .ok q =>
    if w.IndexesReady s.model then (w.withIndexes s.model).request kind s.currentSource.key q
    else w.withIndexes s.model

/-- The calls that running a scope with one request of a kind makes, in order. -/
def executedCalls (kind : RequestKind) (s : Scope M) (w : World M B) : List ExternalCall :=
  match s.compile with
  | .error _ => []
  | .ok q =>
    w.setUpCalls s.model ++
      if w.IndexesReady s.model then [.sent s.currentSource.key ⟨kind, q.selector, q.options⟩] else []

variable {s : Scope M} {w : World M B}

theorem executed_of_compile_error {e : CompileError} (kind : RequestKind) (w : World M B)
    (hcompile : s.compile = .error e) : s.executed kind w = w := by
  rw [executed, hcompile]

theorem executed_of_ready {q : Query} (kind : RequestKind) (hcompile : s.compile = .ok q)
    (hready : w.IndexesReady s.model) :
    s.executed kind w = (w.withIndexes s.model).request kind s.currentSource.key q := by
  rw [executed, hcompile]
  exact if_pos hready

theorem executed_of_not_ready {q : Query} (kind : RequestKind) (hcompile : s.compile = .ok q)
    (hready : ¬ w.IndexesReady s.model) : s.executed kind w = w.withIndexes s.model := by
  rw [executed, hcompile]
  exact if_neg hready

/-- What holds of the world, of it with the indexes set up and of that after any request holds after the run. -/
theorem executed_induction {motive : World M B → Prop} (kind : RequestKind) (untouched : motive w)
    (prepared : motive (w.withIndexes s.model))
    (sent : ∀ q, motive ((w.withIndexes s.model).request kind s.currentSource.key q)) :
    motive (s.executed kind w) := by
  rw [executed]
  split
  · exact untouched
  · split
    · exact sent _
    · exact prepared

/-! ### What running leaves -/

theorem calls_executed (kind : RequestKind) (s : Scope M) (w : World M B) :
    (s.executed kind w).calls = w.calls ++ s.executedCalls kind w := by
  rw [executed, executedCalls]
  split
  · exact (List.append_nil _).symm
  · split
    · rw [World.calls_request, World.calls_withIndexes, List.append_assoc]
    · rw [World.calls_withIndexes, List.append_nil]

/-- A run settles the indexes of the model of the scope, if it does anything. -/
theorem indexState_executed {q : Query} (kind : RequestKind) (w : World M B) (hcompile : s.compile = .ok q)
    (m : Schema M) : (s.executed kind w).indexState m = (w.withIndexes s.model).indexState m := by
  by_cases hready : w.IndexesReady s.model
  · rw [executed_of_ready _ hcompile hready, World.indexState_request]
  · rw [executed_of_not_ready _ hcompile hready]

theorem reckoned_executed {m : Schema M} (kind : RequestKind) (hflag : m.SetsFlag)
    (hsame : s.model.key = m.key → s.model = m) : (s.executed kind w).reckoned m = w.reckoned m :=
  executed_induction (motive := fun left => left.reckoned m = w.reckoned m) kind rfl (w.reckoned_withIndexes hflag hsame)
    fun _ => (World.reckoned_request ..).trans (w.reckoned_withIndexes hflag hsame)

/-- As often as a scope is run, the indexes of its model can be had, if they can however often they are set up. -/
theorem staysReady_executed (kind : RequestKind) (s : Scope M) (w : World M B)
    (hstays : s.model.StaysReady (w.indexState s.model)) :
    s.model.StaysReady ((s.executed kind w).indexState s.model) := by
  cases hcompile : s.compile with
  | error e => rwa [executed_of_compile_error kind w hcompile]
  | ok q =>
    rw [indexState_executed kind w hcompile, World.indexState_withIndexes_self]
    exact hstays.settled

/-! ### What the answers run -/

/-- Running a scope is preparing it, and sending its request if that went well. -/
theorem executed_eq_prepare (kind : RequestKind) (s : Scope M) (w : World M B) :
    s.executed kind w = match (s.prepare w).1 with
      | .ok q => (s.prepare w).2.request kind s.currentSource.key q
      | .error _ => (s.prepare w).2 := by
  cases hcompile : s.compile with
  | error e => rw [prepare_of_compile_error w hcompile, executed_of_compile_error _ _ hcompile]
  | ok q =>
    cases hfailure : w.indexFailure? s.model with
    | none => rw [prepare_of_ready hcompile hfailure, executed_of_ready _ hcompile hfailure]
    | some e =>
      have hready : ¬ w.IndexesReady s.model := by
        rw [World.IndexesReady, hfailure]
        exact nofun
      rw [prepare_of_failure hcompile hfailure, executed_of_not_ready _ hcompile hready]

theorem world_cursor (s : Scope M) (w : World M B) : (s.cursor w).2 = s.executed .find w := by
  rw [executed_eq_prepare, cursor]
  obtain ⟨_ | _, _⟩ := s.prepare w <;> rfl

theorem world_count (s : Scope M) (w : World M B) : (s.count w).2 = s.executed .count w := by
  rw [executed_eq_prepare, count]
  obtain ⟨_ | _, _⟩ := s.prepare w <;> rfl

theorem world_fetch (s : Scope M) (w : World M B) : (s.fetch w).2 = s.executed .find w := world_cursor s w

theorem world_load (w : World M B) (hunloaded : s.records = none) : (s.load w).2.2 = s.executed .find w := by
  rw [← world_fetch]
  cases hfetch : (s.fetch w).1 with
  | ok rs => rw [load_of_fetched hunloaded hfetch]
  | error e => rw [load_of_failed hunloaded hfetch]

theorem world_first (w : World M B) (hunloaded : s.records = none) :
    (s.first w).2 = (s.limitedTo 1).executed .find w := by
  rw [first, hunloaded]
  exact world_fetch (s.limitedTo 1) w

theorem world_hasDocument (w : World M B) (hunloaded : s.records = none) :
    (s.hasDocument w).2 = (s.limitedTo 1).executed .find w := by
  rw [hasDocument, hunloaded]
  exact world_cursor (s.limitedTo 1) w

/-! ### What keeps a scope from running -/

theorem size_of_unloaded (w : World M B) (hunloaded : s.records = none) : s.size w = s.count w := by
  rw [size, hunloaded]

theorem size_of_obstacle {e : QueryError M B} (hunloaded : s.records = none) (hobstacle : s.obstacle? w = some e) :
    (s.size w).1 = .error e := by
  rw [size_of_unloaded w hunloaded]
  exact count_of_obstacle hobstacle

theorem first_of_obstacle {e : QueryError M B} (hunloaded : s.records = none)
    (hobstacle : (s.limitedTo 1).obstacle? w = some e) : (s.first w).1 = .error e := by
  rw [first, hunloaded]
  show ((s.limitedTo 1).fetch w).1.map List.head? = _
  rw [fetch_of_obstacle hobstacle]
  rfl

theorem hasDocument_of_obstacle {e : QueryError M B} (hunloaded : s.records = none)
    (hobstacle : (s.limitedTo 1).obstacle? w = some e) : (s.hasDocument w).1 = .error e := by
  rw [hasDocument, hunloaded]
  show ((s.limitedTo 1).cursor w).1.bind _ = _
  rw [cursor_of_obstacle hobstacle]
  rfl

/-! ### Runs on a store in memory do not disturb one another -/

section Memory

variable {w w' : World M Database.backend}

/-- A run sends requests at most, and these leave the documents as they are. -/
theorem alike_executed (kind : RequestKind) (s : Scope M) (w : World M Database.backend) :
    Database.Alike w.store (s.executed kind w).store := by
  have hprepared : Database.Alike w.store (w.withIndexes s.model).store := by
    rw [World.store_withIndexes]
    exact fun _ => rfl
  refine executed_induction (motive := fun left => Database.Alike w.store left.store) (s := s) (w := w) kind
    (fun _ => rfl) hprepared fun q => ?_
  have hrequest : Database.Alike (w.withIndexes s.model).store
      ((w.withIndexes s.model).request kind s.currentSource.key q).store := by
    cases kind with
    | find => exact Database.alike_find _ _ q
    | count => exact Database.alike_count _ _ q
  exact fun key => (hprepared key).trans (hrequest key)

theorem obstacle?_congr (hready : w.indexFailure? s.model = w'.indexFailure? s.model) :
    s.obstacle? w = s.obstacle? w' := by
  rw [obstacle?, obstacle?, hready]

/-- Two worlds answer a scope alike if their stores hold the same and its indexes can be had in both or in neither. -/
theorem cursor_of_alike (halike : Database.Alike w.store w'.store)
    (hready : w.indexFailure? s.model = w'.indexFailure? s.model) : (s.cursor w).1 = (s.cursor w').1 := by
  have hsame := obstacle?_congr hready
  cases hobstacle : s.obstacle? w with
  | some e => rw [cursor_of_obstacle hobstacle, cursor_of_obstacle (hsame ▸ hobstacle)]
  | none =>
    obtain ⟨q, hcompile, hw⟩ := runs_of_no_obstacle hobstacle
    rw [cursor_answer hcompile hw, cursor_answer hcompile (hready.symm.trans hw)]
    exact congrArg _ (halike.find _ _ _)

theorem count_of_alike (halike : Database.Alike w.store w'.store)
    (hready : w.indexFailure? s.model = w'.indexFailure? s.model) : (s.count w).1 = (s.count w').1 := by
  have hsame := obstacle?_congr hready
  cases hobstacle : s.obstacle? w with
  | some e => rw [count_of_obstacle hobstacle, count_of_obstacle (hsame ▸ hobstacle)]
  | none =>
    obtain ⟨q, hcompile, hw⟩ := runs_of_no_obstacle hobstacle
    rw [count_answer hcompile hw, count_answer hcompile (hready.symm.trans hw)]
    exact congrArg _ (halike.count _ _ _)

end Memory

end Scope

end DocQuery
