import DocQuery.Proofs.Scope.Requests
import DocQuery.Session.Running

/-!
# What a step of a session leaves as it was

A step may give a new scope to one name, or take the scope of one name away, and every other name keeps the
scope that it had. Questions fall into those that load the scope they are put to and those that leave it as
it is. The models never change. All that later modules need of the long definition of a step is here.
-/

namespace DocQuery

variable {M : ModelKind} {B : Backend}

/-- Whether answering a question loads the scope that it is put to. -/
def Question.loads : Question M → Bool
  | records | hasPassing _ | last | item _ | sameRecords _ => true
  | _ => false

/-- The step has the scope of a name loaded, or loaded anew. -/
def Step.Loads (name : String) : Step M B → Prop
  | reload other => other = name
  | ask other q => other = name ∧ q.loads = true
  | _ => False

/-- The name whose scope a step may replace or take away. -/
def Step.target? : Step M B → Option String
  | start _ scope => some scope
  | derive _ _ new => some new
  | reset name | reload name | intoRecords name | ask name _ => some name
  | _ => none

namespace Session

variable {s : Session M B}

@[simp] theorem scope?_withScope (s : Session M B) (name other : String) (scope : Scope M) :
    (s.withScope name scope).scope? other = if name = other then some scope else s.scope? other :=
  Entries.get?_put name other scope s.scopes

theorem withScope_of_scope? {name : String} {scope : Scope M} (hscope : s.scope? name = some scope) :
    s.withScope name scope = s := by
  rw [withScope, Entries.put_of_get? hscope]

theorem onScope_of_scope? {name : String} {scope : Scope M} (f : Scope M → Answer M B × Session M B)
    (hscope : s.scope? name = some scope) : s.onScope name f = f scope := by
  rw [onScope, hscope]

theorem onScope_of_unknown {name : String} (f : Scope M → Answer M B × Session M B)
    (hscope : s.scope? name = none) : s.onScope name f = (.unknown name, s) := by
  rw [onScope, hscope]

theorem perform_ask {name : String} {scope : Scope M} (q : Question M) (hscope : s.scope? name = some scope) :
    s.perform (.ask name q) = s.ask name scope q := by
  rw [perform, onScope_of_scope? _ hscope]

theorem perform_derive {name : String} {scope t : Scope M} {d : Derivation} (new : String)
    (hscope : s.scope? name = some scope) (hderived : s.derived scope d = .ok t) :
    s.perform (.derive name d new) = (.criteria t.criteria, s.withScope new t) := by
  rw [perform, onScope_of_scope? _ hscope, hderived]

theorem world_perform_derive (s : Session M B) (name new : String) (d : Derivation) :
    (s.perform (.derive name d new)).2.world = s.world := by
  rw [perform, onScope]
  split
  · split <;> rfl
  · rfl

/-! ### Questions -/

theorem ask_of_loads {q : Question M} (s : Session M B) (name : String) (scope : Scope M) (hloads : q.loads = true) :
    (s.ask name scope q).2 =
      { s.withScope name (scope.load s.world).2.1 with world := (scope.load s.world).2.2 } := by
  cases q with
  | records => rfl
  | hasPassing test => rfl
  | last => rfl
  | item n => rfl
  | sameRecords rs => rfl
  | _ => cases hloads

theorem scopes_ask_of_not_loads {q : Question M} (s : Session M B) (name : String) (scope : Scope M)
    (hloads : q.loads = false) : (s.ask name scope q).2.scopes = s.scopes := by
  cases q with
  | records | hasPassing | last | item | sameRecords => cases hloads
  | sameScope other =>
    rw [ask]
    split <;> rfl
  | _ => rfl

theorem models_ask (s : Session M B) (name : String) (scope : Scope M) (q : Question M) :
    (s.ask name scope q).2.models = s.models := by
  cases q with
  | sameScope other =>
    rw [ask]
    split <;> rfl
  | _ => rfl

theorem scope?_ask_of_ne {name other : String} (s : Session M B) (scope : Scope M) (q : Question M) (hne : name ≠ other) :
    (s.ask name scope q).2.scope? other = s.scope? other := by
  cases hloads : q.loads with
  | true =>
    rw [ask_of_loads s name scope hloads]
    show (s.withScope name _).scope? other = _
    rw [scope?_withScope, if_neg hne]
  | false => rw [scope?, scopes_ask_of_not_loads s name scope hloads, scope?]

/-! ### Steps -/

/-- A step leaves every scope as it was but the one of its target. -/
theorem scope?_perform_of_ne_target {step : Step M B} {other : String}
    (hne : step.target? ≠ some other) : (s.perform step).2.scope? other = s.scope? other := by
  cases step with
  | start model scope =>
    have hne' : scope ≠ other := fun h => hne (congrArg some h)
    rw [perform]
    split
    · rw [scope?_withScope, if_neg hne']
    · rfl
  | work => rfl
  | derive name d new =>
    have hne' : new ≠ other := fun h => hne (congrArg some h)
    rw [perform, onScope]
    split
    · split
      · rw [scope?_withScope, if_neg hne']
      · rfl
    · rfl
  | reset name =>
    have hne' : name ≠ other := fun h => hne (congrArg some h)
    rw [perform, onScope]
    split
    · rw [scope?_withScope, if_neg hne']
    · rfl
  | reload name =>
    have hne' : name ≠ other := fun h => hne (congrArg some h)
    rw [perform, onScope]
    split
    · rw [askLoaded]
      show (s.withScope name _).scope? other = _
      rw [scope?_withScope, if_neg hne']
    · rfl
  | intoRecords name =>
    have hne' : name ≠ other := fun h => hne (congrArg some h)
    rw [perform, onScope]
    split
    · show Entries.get? other (Entries.erase name s.scopes) = _
      rw [Entries.get?_erase, if_neg hne', scope?]
    · rfl
  | ask name q =>
    have hne' : name ≠ other := fun h => hne (congrArg some h)
    rw [perform, onScope]
    split
    · exact scope?_ask_of_ne s _ q hne'
    · rfl

/-- The ways in which a scope can stand under a name after a step. -/
inductive Leaves (s : Session M B) (step : Step M B) (name : String) : Scope M → Prop where
  | kept {scope : Scope M} (hscope : s.scope? name = some scope) : Leaves s step name scope
  | dropped {scope : Scope M} (hscope : s.scope? name = some scope) (hstep : step = .reset name ∨ step = .reload name) :
    Leaves s step name scope.unloaded
  | loaded {scope : Scope M} {rs : List M.Record} (hstep : step.Loads name) (hscope : s.scope? name = some scope)
    (hfetch : (scope.fetch s.world).1 = .ok rs) : Leaves s step name { scope with records := some rs }
  | started {model : String} {m : Schema M} (hstep : step = .start model name) (hmodel : s.models.get? model = some m) :
    Leaves s step name (Scope.all m)
  | derived {source : String} {d : Derivation} {scope t : Scope M} (hstep : step = .derive source d name)
    (hscope : s.scope? source = some scope) (hderived : s.derived scope d = .ok t) : Leaves s step name t

private theorem leaves_load {step : Step M B} {name : String} {scope : Scope M} (hstep : step.Loads name)
    (hscope : s.scope? name = some scope) : s.Leaves step name (scope.load s.world).2.1 := by
  cases hrecords : scope.records with
  | some rs =>
    rw [Scope.load_of_records _ hrecords]
    exact .kept hscope
  | none =>
    cases hfetch : (scope.fetch s.world).1 with
    | ok rs =>
      rw [Scope.load_of_fetched hrecords hfetch]
      exact .loaded hstep hscope hfetch
    | error e =>
      rw [Scope.load_of_failed hrecords hfetch]
      exact .kept hscope

private theorem leaves_reload {name : String} {scope : Scope M} (hscope : s.scope? name = some scope) :
    s.Leaves (.reload name) name (scope.unloaded.load s.world).2.1 := by
  cases hfetch : (scope.unloaded.fetch s.world).1 with
  | ok rs =>
    rw [Scope.load_of_fetched rfl hfetch]
    show s.Leaves _ name { scope with records := some rs }
    exact .loaded rfl hscope hfetch
  | error e =>
    rw [Scope.load_of_failed rfl hfetch]
    exact .dropped hscope (.inr rfl)

/-- Whatever stands under a name after a step got there in one of these ways. -/
theorem leaves_of_perform {step : Step M B} {name : String} {t : Scope M}
    (ht : (s.perform step).2.scope? name = some t) : s.Leaves step name t := by
  by_cases htarget : step.target? = some name
  · cases step with
    | work => cases htarget
    | start model scope =>
      cases htarget
      rw [perform] at ht
      split at ht
      · next m hmodel =>
        rw [scope?_withScope, if_pos rfl] at ht
        cases ht
        exact .started rfl hmodel
      · exact .kept ht
    | derive source d new =>
      cases htarget
      rw [perform, onScope] at ht
      split at ht
      · next scope hscope =>
        split at ht
        · next u hderived =>
          rw [scope?_withScope, if_pos rfl] at ht
          cases ht
          exact .derived rfl hscope hderived
        · exact .kept ht
      · exact .kept ht
    | reset name =>
      cases htarget
      rw [perform, onScope] at ht
      split at ht
      · next scope hscope =>
        rw [scope?_withScope, if_pos rfl] at ht
        cases ht
        exact .dropped hscope (.inl rfl)
      · exact .kept ht
    | reload name =>
      cases htarget
      rw [perform, onScope] at ht
      split at ht
      · next scope hscope =>
        change (s.withScope name (scope.unloaded.load s.world).2.1).scope? name = some t at ht
        rw [scope?_withScope, if_pos rfl] at ht
        cases ht
        exact leaves_reload hscope
      · exact .kept ht
    | intoRecords name =>
      cases htarget
      rw [perform, onScope] at ht
      split at ht
      · change Entries.get? name (Entries.erase name s.scopes) = some t at ht
        rw [Entries.get?_erase, if_pos rfl] at ht
        cases ht
      · exact .kept ht
    | ask name q =>
      cases htarget
      rw [perform, onScope] at ht
      split at ht
      · next scope hscope =>
        cases hloads : q.loads with
        | true =>
          rw [ask_of_loads s name scope hloads] at ht
          change (s.withScope name (scope.load s.world).2.1).scope? name = some t at ht
          rw [scope?_withScope, if_pos rfl] at ht
          cases ht
          exact leaves_load ⟨rfl, hloads⟩ hscope
        | false =>
          rw [scope?, scopes_ask_of_not_loads s name scope hloads] at ht
          exact .kept ht
      · exact .kept ht
  · rw [scope?_perform_of_ne_target htarget] at ht
    exact .kept ht

/-- A scope that is derived has no records, whatever the scopes that it is derived from have. -/
theorem records_derived {scope t : Scope M} {d : Derivation} (hderived : s.derived scope d = .ok t) :
    t.records = none := by
  cases d with
  | having | orderBy | selecting | limitedTo | skipping | copy | findAllBy =>
    cases hderived
    rfl
  | without clause =>
    cases hderived
    cases clause <;> rfl
  | readingFrom key =>
    rw [derived] at hderived
    split at hderived
    · cases hderived
      rfl
    · cases hderived
  | merge other =>
    rw [derived] at hderived
    split at hderived
    · cases hderived
      rfl
    · cases hderived

theorem model_derived {scope t : Scope M} {d : Derivation} (hderived : s.derived scope d = .ok t) :
    t.model = scope.model := by
  cases d with
  | having | orderBy | selecting | limitedTo | skipping | copy | findAllBy =>
    cases hderived
    rfl
  | without clause =>
    cases hderived
    cases clause <;> rfl
  | readingFrom key =>
    rw [derived] at hderived
    split at hderived
    · cases hderived
      rfl
    · cases hderived
  | merge other =>
    rw [derived] at hderived
    split at hderived
    · cases hderived
      rfl
    · cases hderived

theorem models_perform (s : Session M B) (step : Step M B) : (s.perform step).2.models = s.models := by
  cases step with
  | start model scope =>
    rw [perform]
    split <;> rfl
  | work => rfl
  | derive name d new =>
    rw [perform, onScope]
    split
    · split <;> rfl
    · rfl
  | reset name | reload name | intoRecords name =>
    rw [perform, onScope]
    split <;> rfl
  | ask name q =>
    rw [perform, onScope]
    split
    · exact models_ask s name _ q
    · rfl

theorem after_append (s : Session M B) (earlier later : List (Step M B)) :
    s.after (earlier ++ later) = (s.after earlier).after later := by
  induction earlier generalizing s with
  | nil => rfl
  | cons step rest ih => exact ih (s.step step).2

end Session

end DocQuery
