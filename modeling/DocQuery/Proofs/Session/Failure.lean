import DocQuery.Proofs.Scope.Evaluation
import DocQuery.Proofs.Scope.Failure
import DocQuery.Proofs.Session.Frame
import DocQuery.Session.Basic

/-!
# What a failure leaves behind

A step on a scope that fails takes effect on that scope only, and there it takes back at most the records: a
failed reload has dropped them, a scope that is given up is gone, and after any other failure the scope is the
one that it was. What was to be loaded was not loaded before and is not afterwards, however many records were
built until the failure, so the next load starts from the clauses as the load of a copy does.
-/

namespace DocQuery

variable {M : ModelKind} {B : Backend}

/-- The error that an answer reports. -/
def Answer.error? : Answer M B → Option (QueryError M B)
  | query (.error e) => some (.compile e)
  | reloaded (.error e) | records (.error e) | record (.error e) | number (.error e) | truth (.error e) => some e
  | _ => none

/-- What is left of the scope that a failed step is about. -/
def Step.leftover (scope : Scope M) : Step M B → Option (Scope M)
  | reload _ => some scope.unloaded
  | intoRecords _ => none
  | _ => some scope

/-- Whether a load that fails is reported as an error, and not as records that differ. -/
def Question.raises : Question M → Bool
  | sameRecords _ => false
  | q => q.loads

namespace Session

variable {s : Session M B} {name : String} {scope : Scope M} {e : QueryError M B}

theorem error?_askLoaded {α : Type} {answer : Except (QueryError M B) α → Answer M B} (f : List M.Record → α) (hok : ∀ a, (answer (.ok a)).error? = none)
    (herror : ∀ e, (answer (.error e)).error? = some e) (e : QueryError M B) :
    (s.askLoaded name scope answer f).1.error? = some e ↔ (scope.load s.world).1 = .error e := by
  show (answer ((scope.load s.world).1.map f)).error? = some e ↔ _
  cases (scope.load s.world).1 with
  | ok rs =>
    rw [Except.map, hok]
    exact ⟨nofun, nofun⟩
  | error e' =>
    rw [Except.map, herror, Option.some.injEq, Except.error.injEq]

/-- A question that has the scope loaded fails just if the load does. -/
theorem error?_ask_of_raises {q : Question M} (hraises : q.raises = true) (e : QueryError M B) :
    (s.ask name scope q).1.error? = some e ↔ (scope.load s.world).1 = .error e := by
  cases q with
  | records | hasPassing | last | item => exact error?_askLoaded _ (fun _ => rfl) (fun _ => rfl) e
  | _ => cases hraises

theorem error?_ask_sameRecords (s : Session M B) (name : String) (scope : Scope M) (ts : List M.Record) :
    (s.ask name scope (.sameRecords ts)).1.error? = none := rfl

theorem load_eq_error {w : World M B} (hload : (scope.load w).1 = .error e) :
    scope.records = none ∧ (scope.load w).2.1 = scope := by
  cases hrecords : scope.records with
  | some rs =>
    rw [Scope.load_of_records w hrecords] at hload
    cases hload
  | none =>
    rw [Scope.load_answer w hrecords] at hload
    rw [Scope.load_of_failed hrecords hload]
    exact ⟨rfl, rfl⟩

/-- A load that fails leaves every scope as it was. -/
theorem scopes_ask_of_failed {q : Question M} (hscope : s.scope? name = some scope) (hloads : q.loads = true)
    (hload : (scope.load s.world).1 = .error e) : (s.ask name scope q).2.scopes = s.scopes := by
  rw [ask_of_loads s name scope hloads, (load_eq_error hload).2]
  exact Entries.put_of_get? hscope

theorem scopes_ask_of_error {q : Question M} (hscope : s.scope? name = some scope)
    (herror : (s.ask name scope q).1.error? = some e) :
    (s.ask name scope q).2.scopes = s.scopes ∧ (q.loads = true → scope.records = none) := by
  cases hloads : q.loads with
  | false => exact ⟨scopes_ask_of_not_loads s name scope hloads, nofun⟩
  | true =>
    cases hraises : q.raises with
    | true =>
      have hload := (error?_ask_of_raises hraises e).mp herror
      exact ⟨scopes_ask_of_failed hscope hloads hload, fun _ => (load_eq_error hload).1⟩
    | false =>
      cases q with
      | sameRecords ts =>
        rw [error?_ask_sameRecords] at herror
        cases herror
      | records | hasPassing | last | item => cases hraises
      | _ => cases hloads

/-- A failed step leaves of its scope what is left over, and every other scope as it was. -/
theorem perform_of_error {step : Step M B} (hname : step.scope? = some name) (hscope : s.scope? name = some scope)
    (herror : (s.perform step).1.error? = some e) :
    (s.perform step).2.scope? name = step.leftover scope ∧
      ∀ other, other ≠ name → (s.perform step).2.scope? other = s.scope? other := by
  have hothers : step.target? = some name → ∀ other, other ≠ name →
      (s.perform step).2.scope? other = s.scope? other := by
    intro htarget other hother
    apply scope?_perform_of_ne_target
    rw [htarget]
    exact fun h => hother (Option.some.inj h).symm
  cases step with
  | start | work => cases hname
  | derive source d new =>
    cases hname
    rw [perform, onScope_of_scope? _ hscope] at herror
    split at herror <;> cases herror
  | reset source =>
    cases hname
    rw [perform, onScope_of_scope? _ hscope] at herror
    cases herror
  | reload source =>
    cases hname
    refine ⟨?_, hothers rfl⟩
    rw [perform, onScope_of_scope? _ hscope] at herror ⊢
    have hload := (error?_askLoaded _ (fun _ => rfl) (fun _ => rfl) e).mp herror
    show (s.withScope name (scope.unloaded.load s.world).2.1).scope? name = _
    rw [scope?_withScope, if_pos rfl, (load_eq_error hload).2]
    rfl
  | intoRecords source =>
    cases hname
    refine ⟨?_, hothers rfl⟩
    rw [perform, onScope_of_scope? _ hscope]
    show (s.scopes.erase name).get? name = none
    rw [Entries.get?_erase, if_pos rfl]
  | ask source q =>
    cases hname
    refine ⟨?_, hothers rfl⟩
    rw [perform_ask q hscope] at herror ⊢
    rw [scope?, (scopes_ask_of_error hscope herror).1]
    exact hscope

/-! ### Which loads fail -/

theorem error?_ask_iff {q : Question M} (hscope : s.scope? name = some scope) (hunloaded : scope.records = none)
    (hraises : q.raises = true) :
    (s.perform (.ask name q)).1.error? = some e ↔ scope.Fails s.world e := by
  rw [perform_ask q hscope, error?_ask_of_raises hraises, Scope.load_eq_error_iff hunloaded]

theorem error?_reload_iff (hscope : s.scope? name = some scope) :
    (s.perform (.reload name)).1.error? = some e ↔ scope.unloaded.Fails s.world e := by
  rw [perform, onScope_of_scope? _ hscope, error?_askLoaded _ (fun _ => rfl) (fun _ => rfl),
    Scope.load_eq_error_iff rfl]

theorem error?_intoRecords_iff (hscope : s.scope? name = some scope) (hunloaded : scope.records = none) :
    (s.perform (.intoRecords name)).1.error? = some e ↔ scope.Fails s.world e := by
  rw [perform, onScope_of_scope? _ hscope, Scope.intoRecords, hunloaded, ← Scope.fetch_eq_error_iff]
  show (Answer.records (B := B) (scope.fetch s.world).1).error? = some e ↔ _
  cases (scope.fetch s.world).1 with
  | ok rs =>
    constructor
    · intro h
      cases h
    · intro h
      cases h
  | error e' => rw [Answer.error?, Option.some.injEq, Except.error.injEq]

theorem answer_sameRecords_of_fails (ts : List M.Record) (hscope : s.scope? name = some scope)
    (hunloaded : scope.records = none) (hfails : scope.Fails s.world e) :
    (s.perform (.ask name (.sameRecords ts))).1 = .truth (.ok false) ∧
      (s.perform (.ask name (.sameRecords ts))).2.scopes = s.scopes := by
  have hload := (Scope.load_eq_error_iff hunloaded).mpr hfails
  rw [perform_ask _ hscope]
  refine ⟨?_, scopes_ask_of_failed hscope rfl hload⟩
  show Answer.truth (.ok (((scope.load s.world).1.map (sameRecordLists · ts)).toOption.getD false)) = _
  rw [hload]
  rfl

/-- Loading a scope that is not loaded is loading a copy of it. -/
theorem load_copy (new : String) (hscope : s.scope? name = some scope) (hunloaded : scope.records = none) :
    (s.perform (.ask name .records)).1 = ((s.perform (.derive name .copy new)).2.perform (.ask new .records)).1 ∧
      (s.perform (.ask name .records)).2.world =
        ((s.perform (.derive name .copy new)).2.perform (.ask new .records)).2.world := by
  have hcopy : s.derived scope .copy = .ok scope := by rw [derived, Scope.unloaded, ← hunloaded]
  have hnew : (s.withScope new scope).scope? new = some scope := by rw [scope?_withScope, if_pos rfl]
  rw [perform_derive new hscope hcopy, perform_ask _ hscope, perform_ask _ hnew]
  exact ⟨rfl, rfl⟩

/-- Whatever makes a step on a scope fail, the step is without effect on the scopes, but for the records that a
reload has dropped and the scope that was given up; a load that fails leaves no record. The loads that fail are
those in which one of the stages does, a store in memory refuses a request if it cannot be reached or the collection
rejects the request, a comparison with records does not tell a failure from a difference, and the next load is that of
a copy. -/
theorem failure_atomic :
    (∀ (s : Session M B) (step : Step M B) (name : String) (scope : Scope M) (e : QueryError M B),
      step.scope? = some name → s.scope? name = some scope → (s.step step).1.answer.error? = some e →
      (s.step step).2.scope? name = step.leftover scope ∧
      (∀ other, other ≠ name → (s.step step).2.scope? other = s.scope? other) ∧
      ∀ q, step = .ask name q → q.loads = true → scope.records = none) ∧
    (∀ (s : Session M B) (name : String) (scope : Scope M) (e : QueryError M B), s.scope? name = some scope →
      scope.records = none →
      (∀ q : Question M, q.raises = true →
        ((s.step (.ask name q)).1.answer.error? = some e ↔ scope.Fails s.world e)) ∧
      ((s.step (.intoRecords name)).1.answer.error? = some e ↔ scope.Fails s.world e) ∧
      ∀ ts, scope.Fails s.world e → (s.step (.ask name (.sameRecords ts))).1.answer = .truth (.ok false) ∧
        (s.step (.ask name (.sameRecords ts))).2.scopes = s.scopes) ∧
    (∀ (s : Session M B) (name : String) (scope : Scope M) (e : QueryError M B), s.scope? name = some scope →
      ((s.step (.reload name)).1.answer.error? = some e ↔ scope.unloaded.Fails s.world e)) ∧
    (∀ (scope : Scope M) (w : World M Database.backend) (q : Query) (e : StorageError), scope.compile = .ok q →
      w.IndexesReady scope.model →
      (scope.Asks w q (.error e) ↔
        (∀ c, w.store.connections.get? scope.currentSource.key = some c → c.reachable = false) ∧
            e = .connectionRefused ∨
          ∃ c reason, w.store.connections.get? scope.currentSource.key = some c ∧ c.reachable = true ∧
            c.collection.search q.selector q.options = .error reason ∧ e = .rejected reason)) ∧
    ∀ (t : Session M B) (name new : String) (scope : Scope M), t.scope? name = some scope → scope.records = none →
      (t.step (.ask name .records)).1.answer =
        ((t.step (.derive name .copy new)).2.step (.ask new .records)).1.answer ∧
      (t.step (.ask name .records)).2.world =
        ((t.step (.derive name .copy new)).2.step (.ask new .records)).2.world := by
  refine ⟨?_, ?_, ?_, fun scope w q e => Scope.asks_error_iff, fun t name new scope => load_copy new⟩
  · intro s step name scope e hname hscope herror
    obtain ⟨hleft, hothers⟩ := perform_of_error hname hscope herror
    refine ⟨hleft, hothers, ?_⟩
    rintro q rfl hloads
    have herror : (s.perform (.ask name q)).1.error? = some e := herror
    rw [perform_ask q hscope] at herror
    exact (scopes_ask_of_error hscope herror).2 hloads
  · intro s name scope e hscope hunloaded
    refine ⟨fun q hraises => error?_ask_iff hscope hunloaded hraises, error?_intoRecords_iff hscope hunloaded, ?_⟩
    intro ts hfails
    exact answer_sameRecords_of_fails ts hscope hunloaded hfails
  · intro s name scope e hscope
    exact error?_reload_iff hscope

/-! ### Three people, the second of them lost -/

open Scope (person people)

/-- A session in which the cursor over the people is lost at the second. -/
def interrupted : Session Model.kind Database.backend :=
  (start ⟨[("people", { people with breaksAt := some 1 })], .issued, 0⟩ [("Person", person .once)]).after
    [.start "Person" "all", .derive "all" (.limitedTo 1) "one", .ask "one" .records]

theorem interrupted_atomic :
    (Scope.all (person .once).schema).Fails interrupted.world (.storage (.cursorLost 1)) ∧
    (interrupted.step (.ask "all" .records)).2.scope? "all" = some (Scope.all (person .once).schema) ∧
    (interrupted.step (.ask "all" .records)).2.scope? "one" = interrupted.scope? "one" ∧
    (interrupted.step (.ask "all" (.sameRecords []))).1.answer = .truth (.ok false) := by
  have hscope : interrupted.scope? "all" = some (Scope.all (person .once).schema) := by rfl
  have herror : (interrupted.step (.ask "all" .records)).1.answer.error? = some (.storage (.cursorLost 1)) := by rfl
  obtain ⟨hleaves, hloads, -, -, -⟩ := failure_atomic (M := Model.kind) (B := Database.backend)
  obtain ⟨hasked, _, hcompared⟩ := hloads interrupted "all" _ (.storage (.cursorLost 1)) hscope rfl
  have hfails := (hasked .records rfl).mp herror
  obtain ⟨hleft, hothers, _⟩ := hleaves interrupted (.ask "all" .records) "all" _ _ rfl hscope herror
  exact ⟨hfails, hleft, hothers "one" (by decide), (hcompared [] hfails).1⟩

end Session

end DocQuery
