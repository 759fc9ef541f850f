import DocQuery.Proofs.Scope.Calls
import DocQuery.Proofs.Session.Frame

/-!
# What a step of a session does to the world

A step that needs an answer of the store runs a scope once: the scope that it is about, or a copy of it with the
limit one. A loaded scope answers from its records and runs for none but a few questions. Work on the store changes
the store and nothing else, and all other steps leave the world alone. What is to be shown of the world along a run
need only be shown for these three.
-/

namespace DocQuery

variable {M : ModelKind} {B : Backend}

/-- The kind of request that answers a question from the store, and the scope that is run for it. -/
def Question.run? (scope : Scope M) : Question M → Option (RequestKind × Scope M)
  | records | hasPassing _ | last | item _ | sameRecords _ => some (.find, scope)
  | count | size | isEmpty | isNonempty => some (.count, scope)
  | first | hasDocument => some (.find, scope.limitedTo 1)
  | find id => some (.find, (scope.findAllBy identityName id).limitedTo 1)
  | findBy field v => some (.find, (scope.findAllBy field v).limitedTo 1)
  | _ => none

/-- The kind of request that a step on a scope sends, and the scope that is run for it. -/
def Step.run? (scope : Scope M) : Step M B → Option (RequestKind × Scope M)
  | reload _ | intoRecords _ => some (.find, scope)
  | ask _ q => q.run? scope
  | _ => none

/-- Whether a step runs a scope even if the scope that it is about is loaded. -/
def Step.runsAnyway : Step M B → Bool
  | reload _ | ask _ .count | ask _ (.find _) | ask _ (.findBy _ _) => true
  | _ => false

theorem Question.model_of_run? {q : Question M} {scope run : Scope M} {kind : RequestKind}
    (hrun : q.run? scope = some (kind, run)) : run.model = scope.model ∧ run.currentSource = scope.currentSource := by
  cases q <;> cases hrun <;> exact ⟨rfl, rfl⟩

theorem Step.model_of_run? {step : Step M B} {scope run : Scope M} {kind : RequestKind}
    (hrun : step.run? scope = some (kind, run)) : run.model = scope.model ∧ run.currentSource = scope.currentSource := by
  cases step with
  | reload | intoRecords =>
    cases hrun
    exact ⟨rfl, rfl⟩
  | ask name q => exact q.model_of_run? hrun
  | start | work | derive | reset => cases hrun

namespace Session

variable {s : Session M B} {name : String} {scope run : Scope M} {kind : RequestKind}

/-! ### Running a scope -/

theorem unloaded_of_runs {step : Step M B} (hrecords : scope.records = none ∨ step.runsAnyway = true)
    (hanyway : step.runsAnyway = false) : scope.records = none :=
  hrecords.resolve_right (by rw [hanyway]; exact Bool.false_ne_true)

theorem world_ask_of_run {q : Question M} (name : String) (hrun : q.run? scope = some (kind, run))
    (hrecords : scope.records = none ∨ (Step.ask (B := B) name q).runsAnyway = true) :
    (s.ask name scope q).2.world = run.executed kind s.world := by
  have hunloaded := unloaded_of_runs hrecords
  have hsize : scope.records = none → (scope.size s.world).2 = scope.executed .count s.world := by
    intro hnone
    rw [Scope.size, hnone]
    exact Scope.world_count scope s.world
  cases q with
  | records | hasPassing | last | item | sameRecords =>
    cases hrun
    exact Scope.world_load s.world (hunloaded rfl)
  | count =>
    cases hrun
    exact Scope.world_count scope s.world
  | size | isEmpty | isNonempty =>
    cases hrun
    exact hsize (hunloaded rfl)
  | first =>
    cases hrun
    exact Scope.world_first s.world (hunloaded rfl)
  | hasDocument =>
    cases hrun
    exact Scope.world_hasDocument s.world (hunloaded rfl)
  | find id =>
    cases hrun
    exact Scope.world_first (s := scope.findAllBy identityName id) s.world rfl
  | findBy field v =>
    cases hrun
    exact Scope.world_first (s := scope.findAllBy field v) s.world rfl
  | criteria | compile | sameScope | source | model | description => cases hrun

theorem world_perform_of_run {step : Step M B} (hname : step.scope? = some name) (hscope : s.scope? name = some scope)
    (hrun : step.run? scope = some (kind, run)) (hrecords : scope.records = none ∨ step.runsAnyway = true) :
    (s.perform step).2.world = run.executed kind s.world := by
  cases step with
  | reload other =>
    cases hname
    cases hrun
    rw [perform, onScope_of_scope? _ hscope]
    exact Scope.world_load (s := scope.unloaded) s.world rfl
  | intoRecords other =>
    cases hname
    cases hrun
    rw [perform, onScope_of_scope? _ hscope, Scope.intoRecords, hrecords.resolve_right Bool.false_ne_true]
    exact Scope.world_fetch scope s.world
  | ask other q =>
    cases hname
    rw [perform_ask q hscope]
    exact world_ask_of_run name hrun hrecords
  | start | work | derive | reset => cases hrun

/-! ### Leaving the world alone -/

theorem world_ask_of_no_run {q : Question M} (s : Session M B) (name : String) (hrun : q.run? scope = none) :
    (s.ask name scope q).2.world = s.world := by
  cases q with
  | criteria | compile | source | model | description => rfl
  | sameScope other =>
    rw [ask]
    split <;> rfl
  | _ => cases hrun

theorem world_ask_of_loaded {q : Question M} {rs : List M.Record} (hloaded : scope.records = some rs)
    (hanyway : (Step.ask (B := B) name q).runsAnyway = false) : (s.ask name scope q).2.world = s.world := by
  have hsize : (scope.size s.world).2 = s.world := by rw [Scope.size, hloaded]
  cases hloads : q.loads with
  | true =>
    rw [ask_of_loads s name scope hloads]
    show (scope.load s.world).2.2 = s.world
    rw [Scope.load_of_records _ hloaded]
  | false =>
    cases q with
    | records | hasPassing | last | item | sameRecords => cases hloads
    | count | find | findBy => cases hanyway
    | size | isEmpty | isNonempty => exact hsize
    | first =>
      show (scope.first s.world).2 = s.world
      rw [Scope.first, hloaded]
    | hasDocument =>
      show (scope.hasDocument s.world).2 = s.world
      rw [Scope.hasDocument, hloaded]
    | criteria | compile | sameScope | source | model | description => exact world_ask_of_no_run s name rfl

/-! ### Every step -/

/-- The ways in which a step can leave the world. -/
inductive Affects (s : Session M B) : World M B → Prop where
  | untouched : Affects s s.world
  | ran {name : String} {scope run : Scope M} (kind : RequestKind) (hscope : s.scope? name = some scope)
    (hmodel : run.model = scope.model) : Affects s (run.executed kind s.world)
  | worked (store : B.State) : Affects s { s.world with store := store }

private theorem affects_ask (q : Question M) (hscope : s.scope? name = some scope) :
    s.Affects (s.ask name scope q).2.world := by
  cases hrun : q.run? scope with
  | none =>
    rw [world_ask_of_no_run s name hrun]
    exact .untouched
  | some r =>
    obtain ⟨kind, run⟩ := r
    have hmodel := (q.model_of_run? hrun).1
    cases hanyway : (Step.ask (B := B) name q).runsAnyway with
    | true =>
      rw [world_ask_of_run name hrun (.inr hanyway)]
      exact .ran kind hscope hmodel
    | false =>
      cases hrecords : scope.records with
      | none =>
        rw [world_ask_of_run name hrun (.inl hrecords)]
        exact .ran kind hscope hmodel
      | some rs =>
        rw [world_ask_of_loaded hrecords hanyway]
        exact .untouched

/-- Whatever a step does to the world is one of these. -/
theorem affects_perform (s : Session M B) (step : Step M B) : s.Affects (s.perform step).2.world := by
  cases step with
  | start model scope =>
    rw [perform]
    split <;> exact .untouched
  | work change => exact .worked (change s.world.store).2
  | derive name d new =>
    rw [world_perform_derive]
    exact .untouched
  | reset name =>
    rw [perform, onScope]
    split <;> exact .untouched
  | reload name =>
    cases hscope : s.scope? name with
    | none =>
      rw [perform, onScope_of_unknown _ hscope]
      exact .untouched
    | some scope =>
      rw [world_perform_of_run rfl hscope rfl (.inr rfl)]
      exact .ran .find hscope rfl
  | intoRecords name =>
    cases hscope : s.scope? name with
    | none =>
      rw [perform, onScope_of_unknown _ hscope]
      exact .untouched
    | some scope =>
      cases hrecords : scope.records with
      | none =>
        rw [world_perform_of_run rfl hscope rfl (.inl hrecords)]
        exact .ran .find hscope rfl
      | some rs =>
        rw [perform, onScope_of_scope? _ hscope, Scope.intoRecords, hrecords]
        exact .untouched
  | ask name q =>
    cases hscope : s.scope? name with
    | none =>
      rw [perform, onScope_of_unknown _ hscope]
      exact .untouched
    | some scope =>
      rw [perform_ask q hscope]
      exact affects_ask q hscope

end Session

end DocQuery
