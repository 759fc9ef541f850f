import Mathlib.Logic.Function.Iterate
import DocQuery.Query.Compile
import DocQuery.World

/-!
# Calls to a world

A request reaches the store and writes itself into the calls; setting up the indexes of a model reaches the
state of these indexes alone. Indexes are set up only as long as they are needed, so what becomes of that is
read off the state that they are in.
-/

namespace DocQuery

namespace Schema

variable {M : ModelKind} (m : Schema M)

/-- The failure to have the indexes set up, if they are not and setting them up fails. -/
def indexFailure? (state : M.IndexState) : Option M.Failure :=
  if m.initialized state then none
  else
    match (m.setUp state).1 with
    | .ok _ => none
    | .error e => some e

/-- The state after the indexes were set up, unless they were before. -/
def settled (state : M.IndexState) : M.IndexState := if m.initialized state then state else (m.setUp state).2

theorem indexFailure?_of_initialized {m : Schema M} {state : M.IndexState} (hstate : m.initialized state = true) :
    m.indexFailure? state = none := if_pos hstate

/-- The indexes can be had in a state, and as often as they are set up from there. -/
def StaysReady (state : M.IndexState) : Prop := ∀ n, m.indexFailure? (m.settled^[n] state) = none

/-- Indexes that were set up need not be set up again. -/
def SetsFlag : Prop := ∀ state, m.initialized (m.settled state) = true

variable {m} {state : M.IndexState}

theorem StaysReady.ready (hstays : m.StaysReady state) : m.indexFailure? state = none := hstays 0

theorem StaysReady.settled (hstays : m.StaysReady state) : m.StaysReady (m.settled state) := fun n => hstays (n + 1)

theorem SetsFlag.staysReady (hflag : m.SetsFlag) (hready : m.indexFailure? state = none) : m.StaysReady state := by
  intro n
  cases n with
  | zero => exact hready
  | succ n =>
    rw [Function.iterate_succ_apply']
    exact indexFailure?_of_initialized (hflag _)

end Schema

namespace World

variable {M : ModelKind} {B : Backend} (w : World M B)

/-! ### Setting up indexes -/

def indexFailure? (m : Schema M) : Option M.Failure := m.indexFailure? (w.indexState m)

/-- The indexes of a model are set up, or setting them up succeeds. -/
def IndexesReady (m : Schema M) : Prop := w.indexFailure? m = none

instance (m : Schema M) : Decidable (w.IndexesReady m) := inferInstanceAs (Decidable (_ = none))

/-- The world with the indexes of a model set up, unless they were. -/
def withIndexes (m : Schema M) : World M B := if m.initialized (w.indexState m) then w else (w.setUpIndexes m).2

/-- The call that it takes to have the indexes of a model set up, if it takes one. -/
def setUpCalls (m : Schema M) : List ExternalCall := if m.initialized (w.indexState m) then [] else [.setUp m.key]

theorem store_withIndexes (m : Schema M) : (w.withIndexes m).store = w.store := by
  rw [withIndexes]
  split <;> rfl

theorem calls_withIndexes (m : Schema M) : (w.withIndexes m).calls = w.calls ++ w.setUpCalls m := by
  rw [withIndexes, setUpCalls]
  split
  · exact (List.append_nil _).symm
  · rfl

theorem setUpCalls_of_failure {m : Schema M} {e : M.Failure} (hfailure : w.indexFailure? m = some e) :
    w.setUpCalls m = [.setUp m.key] := by
  rw [indexFailure?, Schema.indexFailure?] at hfailure
  rw [setUpCalls]
  split at hfailure
  · cases hfailure
  · next hstate => rw [if_neg hstate]

/-- Setting up the indexes of a model settles the state that is kept under its key, and no other. -/
theorem indexState_withIndexes (m other : Schema M) (hkey : m.key ≠ other.key) :
    (w.withIndexes m).indexState other = w.indexState other := by
  rw [withIndexes]
  split
  · rfl
  · show ((w.indexes.put m.key (m.setUp (w.indexState m)).2).get? other.key).getD other.indexes = _
    rw [Entries.get?_put, if_neg hkey]
    rfl

theorem indexState_withIndexes_self (m : Schema M) : (w.withIndexes m).indexState m = m.settled (w.indexState m) := by
  rw [withIndexes, Schema.settled]
  split
  · rfl
  · show ((w.indexes.put m.key (m.setUp (w.indexState m)).2).get? m.key).getD m.indexes = _
    rw [Entries.get?_put, if_pos rfl]
    rfl

/-- Setting up indexes that need it goes as the state they are in says. -/
theorem setUpIndexes_eq {m : Schema M} (hstate : m.initialized (w.indexState m) = false) :
    w.setUpIndexes m = ((m.setUp (w.indexState m)).1, w.withIndexes m) := by
  rw [withIndexes, hstate, if_neg Bool.false_ne_true]
  rfl

/-! ### Requests -/

/-- The world after a request to the collection of a key. -/
def request (kind : RequestKind) (key : String) (q : Query) : World M B :=
  match kind with
  | .find => (w.find key q.selector q.options).2
  | .count => (w.count key q.selector q.options).2

theorem indexes_request (kind : RequestKind) (key : String) (q : Query) :
    (w.request kind key q).indexes = w.indexes := by
  cases kind <;> rfl

theorem calls_request (kind : RequestKind) (key : String) (q : Query) :
    (w.request kind key q).calls = w.calls ++ [.sent key ⟨kind, q.selector, q.options⟩] := by
  cases kind <;> rfl

theorem indexState_request (kind : RequestKind) (key : String) (q : Query) (m : Schema M) :
    (w.request kind key q).indexState m = w.indexState m := by
  rw [indexState, indexes_request, ← indexState]

/-! ### Counting set-ups -/

/-- The number of times that the indexes of the model of a key were set up. -/
def setUps (key : String) : Nat :=
  w.calls.countP fun
    | .setUp model => model = key
    | .sent _ _ => false

/-- The set-ups of the indexes of a model that were made and the one that may be due. -/
def reckoned (m : Schema M) : Nat := w.setUps m.key + if m.initialized (w.indexState m) then 0 else 1

/-- Setting up indexes for good makes the call that was due. -/
theorem reckoned_withIndexes {m other : Schema M} (hflag : m.SetsFlag) (hsame : other.key = m.key → other = m) :
    (w.withIndexes other).reckoned m = w.reckoned m := by
  rw [reckoned, reckoned, setUps, setUps, calls_withIndexes, List.countP_append]
  by_cases hkey : other.key = m.key
  · obtain rfl := hsame hkey
    rw [indexState_withIndexes_self, hflag, setUpCalls]
    cases other.initialized (w.indexState other) <;> simp
  · rw [indexState_withIndexes _ _ _ hkey, setUpCalls]
    split <;> simp [hkey]

theorem reckoned_request (kind : RequestKind) (key : String) (q : Query) (m : Schema M) :
    (w.request kind key q).reckoned m = w.reckoned m := by
  rw [reckoned, reckoned, setUps, setUps, calls_request, List.countP_append, indexState_request]
  rfl

end World

end DocQuery
