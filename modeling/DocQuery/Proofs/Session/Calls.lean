import DocQuery.Proofs.Scope.Copies
import DocQuery.Proofs.Session.Effects
import DocQuery.Proofs.Session.Failure

/-!
# Steps make their calls in order

A step that runs a scope goes through three stages, and an error at one of them is the answer, with nothing done at
the later ones: the clauses are compiled, which does nothing to the world, the indexes of the model are set up if they
are not, and one request is sent to the collection of the scope. The request is that of the scope that is run, which
can be a copy, but the copies compile just if the scope does. Comparing with records reports no error and finds them
different. Over a run, indexes that stay set up are so after the first call: the calls made and the one that may be due
always add up to the same number.
-/

namespace DocQuery

variable {M : ModelKind} {B : Backend}

/-- The answer shows the error that kept a step from more: it reports it, or finds records different. -/
def Step.Shows (e : QueryError M B) (answer : Answer M B) : Step M B → Prop
  | ask _ (.sameRecords _) => answer = .truth (.ok false)
  | _ => answer.error? = some e

/-! ### The scope that is run -/

theorem Question.compile_run {q : Question M} {scope run : Scope M} {kind : RequestKind} {e : CompileError}
    (hrun : q.run? scope = some (kind, run)) : run.compile = .error e ↔ scope.compile = .error e := by
  cases q with
  | records | hasPassing | last | item | sameRecords | count | size | isEmpty | isNonempty =>
    cases hrun
    exact Iff.rfl
  | first | hasDocument =>
    cases hrun
    exact Scope.compile_limitedTo_eq_error_iff
  | find | findBy =>
    cases hrun
    exact Scope.compile_limitedTo_eq_error_iff.trans Scope.compile_findAllBy_eq_error_iff
  | criteria | compile | sameScope | source | model | description => cases hrun

/-- Whatever copy a step runs, it compiles just if the scope does, and fails as it does. -/
theorem Step.compile_run {step : Step M B} {scope run : Scope M} {kind : RequestKind} {e : CompileError}
    (hrun : step.run? scope = some (kind, run)) : run.compile = .error e ↔ scope.compile = .error e := by
  cases step with
  | reload | intoRecords =>
    cases hrun
    exact Iff.rfl
  | ask name q => exact q.compile_run hrun
  | start | work | derive | reset => cases hrun

namespace Session

variable {s : Session M B} {name : String} {scope run : Scope M} {kind : RequestKind} {e : QueryError M B}

/-! ### Obstacles show -/

theorem error?_askWorld {α : Type} {answer : Except (QueryError M B) α → Answer M B}
    {f : World M B → Except (QueryError M B) α × World M B} (herror : ∀ e, (answer (.error e)).error? = some e)
    (hf : (f s.world).1 = .error e) : (s.askWorld answer f).1.error? = some e := by
  show (answer (f s.world).1).error? = some e
  rw [hf, herror]

theorem shows_ask {q : Question M} (hrun : q.run? scope = some (kind, run))
    (hrecords : scope.records = none ∨ (Step.ask (B := B) name q).runsAnyway = true)
    (hobstacle : run.obstacle? s.world = some e) : (Step.ask (B := B) name q).Shows e (s.ask name scope q).1 := by
  have hunloaded := unloaded_of_runs hrecords
  cases q with
  | records | hasPassing | last | item =>
    cases hrun
    exact (error?_ask_of_raises rfl e).mpr (Scope.load_of_obstacle (hunloaded rfl) hobstacle)
  | sameRecords ts =>
    cases hrun
    show Answer.truth (.ok (((scope.load s.world).1.map (sameRecordLists · ts)).toOption.getD false)) = _
    rw [Scope.load_of_obstacle (hunloaded rfl) hobstacle]
    rfl
  | count =>
    cases hrun
    exact error?_askWorld (fun _ => rfl) (Scope.count_of_obstacle hobstacle)
  | size =>
    cases hrun
    exact error?_askWorld (fun _ => rfl) (Scope.size_of_obstacle (hunloaded rfl) hobstacle)
  | isEmpty | isNonempty =>
    cases hrun
    exact error?_askWorld (fun _ => rfl) (congrArg (Except.map _) (Scope.size_of_obstacle (hunloaded rfl) hobstacle))
  | first =>
    cases hrun
    exact error?_askWorld (fun _ => rfl) (Scope.first_of_obstacle (hunloaded rfl) hobstacle)
  | hasDocument =>
    cases hrun
    exact error?_askWorld (fun _ => rfl) (Scope.hasDocument_of_obstacle (hunloaded rfl) hobstacle)
  | find id =>
    cases hrun
    exact error?_askWorld (fun _ => rfl)
      (Scope.first_of_obstacle (s := scope.findAllBy identityName id) rfl hobstacle)
  | findBy field v =>
    cases hrun
    exact error?_askWorld (fun _ => rfl) (Scope.first_of_obstacle (s := scope.findAllBy field v) rfl hobstacle)
  | criteria | compile | sameScope | source | model | description => cases hrun

theorem shows_perform {step : Step M B} (hname : step.scope? = some name) (hscope : s.scope? name = some scope)
    (hrun : step.run? scope = some (kind, run)) (hrecords : scope.records = none ∨ step.runsAnyway = true)
    (hobstacle : run.obstacle? s.world = some e) : step.Shows e (s.perform step).1 := by
  cases step with
  | reload other =>
    cases hname
    cases hrun
    rw [perform, onScope_of_scope? _ hscope]
    exact (error?_askLoaded _ (fun _ => rfl) (fun _ => rfl) e).mpr (Scope.load_of_obstacle rfl hobstacle)
  | intoRecords other =>
    cases hname
    cases hrun
    rw [perform, onScope_of_scope? _ hscope, Scope.intoRecords, hrecords.resolve_right Bool.false_ne_true]
    show (Answer.records (B := B) (scope.fetch s.world).1).error? = some e
    rw [Scope.fetch_of_obstacle hobstacle]
    rfl
  | ask other q =>
    cases hname
    rw [perform_ask q hscope]
    exact shows_ask hrun hrecords hobstacle
  | start | work | derive | reset => cases hrun

/-! ### One step -/

/-- A step that runs a scope makes its calls in order. It makes none if the clauses do not compile, and otherwise sets
up the indexes of the model if they are not, and then sends one request unless that failed. -/
structure CallsInOrder (s : Session M B) (step : Step M B) (scope : Scope M) (kind : RequestKind) (run : Scope M) :
    Prop where
  uncompiled : ∀ e, scope.compile = .error e →
    step.Shows (.compile e) (s.step step).1.answer ∧ (s.step step).2.world = s.world
  unprepared : ∀ q e, scope.compile = .ok q → s.world.indexFailure? scope.model = some e →
    step.Shows (.model e) (s.step step).1.answer ∧ (s.step step).2.world = s.world.withIndexes scope.model ∧
      (s.step step).2.world.store = s.world.store ∧
      (s.step step).2.world.calls = s.world.calls ++ [.setUp scope.model.key]
  sent : ∀ q, scope.compile = .ok q → s.world.IndexesReady scope.model → ∃ q', run.compile = .ok q' ∧
    (s.step step).2.world = (s.world.withIndexes scope.model).request kind scope.currentSource.key q' ∧
    (s.step step).2.world.calls = s.world.calls ++
      (if scope.model.initialized (s.world.indexState scope.model) then [] else [.setUp scope.model.key]) ++
      [.sent scope.currentSource.key ⟨kind, q'.selector, q'.options⟩]

theorem callsInOrder {step : Step M B} (hname : step.scope? = some name) (hscope : s.scope? name = some scope)
    (hrun : step.run? scope = some (kind, run)) (hrecords : scope.records = none ∨ step.runsAnyway = true) :
    s.CallsInOrder step scope kind run := by
  obtain ⟨hmodel, hsource⟩ := step.model_of_run? hrun
  have hworld : (s.step step).2.world = run.executed kind s.world := world_perform_of_run hname hscope hrun hrecords
  have hshows : ∀ e, run.obstacle? s.world = some e → step.Shows e (s.step step).1.answer :=
    fun e => shows_perform hname hscope hrun hrecords
  have hcompiles : ∀ q, scope.compile = .ok q → ∃ q', run.compile = .ok q' := by
    intro q hcompile
    refine exists_ok_iff.mpr fun e herror => ?_
    rw [(step.compile_run hrun).mp herror] at hcompile
    cases hcompile
  constructor
  · intro e hcompile
    have hfailed := (step.compile_run hrun).mpr hcompile
    exact ⟨hshows _ (Scope.obstacle?_of_compile_error _ hfailed),
      by rw [hworld, Scope.executed_of_compile_error _ _ hfailed]⟩
  · intro q e hcompile hfailure
    obtain ⟨q', hrunning⟩ := hcompiles q hcompile
    have hready : ¬ s.world.IndexesReady run.model := by
      rw [World.IndexesReady, hmodel, hfailure]
      exact Option.some_ne_none e
    have hleft : (s.step step).2.world = s.world.withIndexes scope.model := by
      rw [hworld, Scope.executed_of_not_ready _ hrunning hready, hmodel]
    refine ⟨hshows _ (Scope.obstacle?_of_failure hrunning (hmodel ▸ hfailure)), hleft, ?_, ?_⟩
    · rw [hleft, World.store_withIndexes]
    · rw [hleft, World.calls_withIndexes, s.world.setUpCalls_of_failure hfailure]
  · intro q hcompile hready
    obtain ⟨q', hrunning⟩ := hcompiles q hcompile
    rw [← hmodel] at hready
    have hleft : (s.step step).2.world =
        (s.world.withIndexes scope.model).request kind scope.currentSource.key q' := by
      rw [hworld, Scope.executed_of_ready _ hrunning hready, hmodel, hsource]
    refine ⟨q', hrunning, hleft, ?_⟩
    rw [hleft, World.calls_request, World.calls_withIndexes]
    rfl

/-! ### A run -/

/-- The key of a model tells it from the other models of a session and of its scopes. -/
structure Identifies (s : Session M B) (m : Schema M) : Prop where
  models : ∀ name other, s.models.get? name = some other → other.key = m.key → other = m
  scopes : ∀ name scope, s.scope? name = some scope → scope.model.key = m.key → scope.model = m

theorem identifies_perform {m : Schema M} (step : Step M B) (hs : s.Identifies m) : (s.perform step).2.Identifies m := by
  constructor
  · intro name other hother
    rw [models_perform] at hother
    exact hs.models name other hother
  · intro name t ht
    cases leaves_of_perform ht with
    | kept hscope => exact hs.scopes _ _ hscope
    | dropped hscope | loaded hstep hscope =>
      have hsame := hs.scopes _ _ hscope
      exact hsame
    | started hstep hmodel => exact hs.models _ _ hmodel
    | derived hstep hscope hderived =>
      rw [model_derived hderived]
      exact hs.scopes _ _ hscope

theorem identifies_after {m : Schema M} (steps : List (Step M B)) (hs : s.Identifies m) :
    (s.after steps).Identifies m := by
  induction steps generalizing s with
  | nil => exact hs
  | cons step rest ih => exact ih (identifies_perform step hs)

theorem reckoned_perform {m : Schema M} (step : Step M B) (hs : s.Identifies m) (hflag : m.SetsFlag) :
    (s.perform step).2.world.reckoned m = s.world.reckoned m := by
  have haffects := affects_perform s step
  generalize (s.perform step).2.world = w at haffects ⊢
  cases haffects with
  | untouched | worked => rfl
  | ran kind hscope hmodel =>
    refine Scope.reckoned_executed kind hflag fun hkey => ?_
    rw [hmodel] at hkey ⊢
    exact hs.scopes _ _ hscope hkey

theorem reckoned_after {m : Schema M} (steps : List (Step M B)) (hs : s.Identifies m) (hflag : m.SetsFlag) :
    (s.after steps).world.reckoned m = s.world.reckoned m := by
  induction steps generalizing s with
  | nil => rfl
  | cons step rest ih => exact (ih (identifies_perform step hs)).trans (reckoned_perform step hs hflag)

/-- In every session that is reached a step that runs a scope makes its calls in order. Over every run from there, the
indexes of a model that stay set up are set up at most once, and not at all if they are. -/
theorem calls_in_order (w : World M B) (models : Entries String (Schema M)) (before : List (Step M B)) :
    (∀ (step : Step M B) (name : String) (scope : Scope M) (kind : RequestKind) (run : Scope M),
      step.scope? = some name → ((begun w models).after before).scope? name = some scope →
      step.run? scope = some (kind, run) → (scope.records = none ∨ step.runsAnyway = true) →
      ((begun w models).after before).CallsInOrder step scope kind run) ∧
    ∀ (m : Schema M) (later : List (Step M B)), m.SetsFlag →
      (∀ name other, models.get? name = some other → other.key = m.key → other = m) →
      ((begun w models).after (before ++ later)).world.setUps m.key ≤
        ((begun w models).after before).world.setUps m.key +
          if m.initialized (((begun w models).after before).world.indexState m) then 0 else 1 := by
  refine ⟨fun step name scope kind run => callsInOrder, ?_⟩
  intro m later hflag hmodels
  have hbegun : (begun w models).Identifies m := ⟨hmodels, nofun⟩
  rw [after_append]
  calc (((begun w models).after before).after later).world.setUps m.key
      ≤ (((begun w models).after before).after later).world.reckoned m := Nat.le_add_right ..
    _ = ((begun w models).after before).world.reckoned m :=
        reckoned_after later (identifies_after before hbegun) hflag

/-! ### The elders, counted and looked for -/

open Scope (person peopleDatabase peopleWorld)

/-- Everybody is counted, and the people older than fifty are not asked for yet. -/
def countingSteps : List Step :=
  [.start "Person" "all", .derive "all" (.having [(.operator ⟨"age", .known .above⟩, .string "50")]) "elders",
    .ask "all" .count]

def countingSession : Session Model.kind Database.backend :=
  (start peopleDatabase [("Person", person .once)]).after countingSteps

def elders : Scope Model.kind :=
  (Scope.all (person .once).schema).having [(.operator ⟨"age", .known .above⟩, .string "50")]

theorem firstElder_calls :
    (countingSession.step (.ask "elders" .first)).2.world.calls = countingSession.world.calls ++
      [.sent "people" ⟨.find, [("years", .document [("$gt", .int64 50)])], [("limit", Query.countValue 1)]⟩] ∧
    ∀ later, ((start peopleDatabase [("Person", person .once)]).after (countingSteps ++ later)).world.setUps "Person" ≤
      1 := by
  have hscope : countingSession.scope? "elders" = some elders := by rfl
  have hquery : elders.compile = .ok ⟨[("years", .document [("$gt", .int64 50)])], []⟩ := rfl
  have hstate : countingSession.world.indexState (person .once).schema = ⟨true, 1⟩ := by rfl
  have hmodels : ∀ name other, Entries.get? name [("Person", (person .once).schema)] = some other →
      other.key = (person .once).key → other = (person .once).schema := by
    intro name other hother
    rw [Entries.get?] at hother
    split at hother
    · cases hother
      exact fun _ => rfl
    · cases hother
  obtain ⟨hsteps, honce⟩ := calls_in_order peopleWorld [("Person", (person .once).schema)] countingSteps
  constructor
  · obtain ⟨q, hfirst, -, hcalls⟩ := (hsteps (.ask "elders" .first) "elders" elders _ _ rfl hscope rfl (.inl rfl)).sent _
      hquery rfl
    cases hfirst
    exact hcalls
  · intro later
    exact honce (person .once).schema later Scope.setsFlag_once hmodels

def sideways : Scope Model.kind := (Scope.all (person .once).schema).orderBy [.expression "age sideways"]

/-- A comparison with records does not report that the clauses do not compile. -/
theorem comparison_hides_compile_error :
    ¬ ∀ (w : World Model.kind Database.backend) (models : Entries String (Schema Model.kind)) (before : List Step)
      (step : Step) (name : String) (scope : Scope Model.kind) (kind : RequestKind) (run : Scope Model.kind)
      (e : CompileError), step.scope? = some name → ((begun w models).after before).scope? name = some scope →
      step.run? scope = some (kind, run) → scope.records = none → scope.compile = .error e →
      (((begun w models).after before).step step).1.answer.error? = some (.compile e) := by
  intro hclaim
  have hscope : ((begun peopleWorld [("Person", (person .once).schema)]).after
      [.start "Person" "all", .derive "all" (.orderBy [.expression "age sideways"]) "sideways"]).scope? "sideways" =
      some sideways := by rfl
  have hcompile : sideways.compile = .error (.invalidOrder "age sideways") := rfl
  have herror := hclaim _ _ _ (.ask "sideways" (.sameRecords [])) _ _ _ _ _ rfl hscope rfl rfl hcompile
  cases herror

end Session

end DocQuery
