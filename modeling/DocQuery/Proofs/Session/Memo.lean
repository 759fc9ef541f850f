import Mathlib.Data.List.Induction
import DocQuery.Proofs.Scope.Evaluation
import DocQuery.Proofs.Session.Effects
import DocQuery.Session.Basic

/-!
# Loaded scopes remember

A scope is loaded by a step that got all its records at once, and from then on it stands as it is, whatever
becomes of the store, until a step gives its name to another scope, drops its records or gives it up. While it
stands, everything that can be read off the records is, and the session notices nothing of such a question.
Counting is the exception: it asks the store every time, and the records have no part in it.
-/

namespace DocQuery

variable {M : ModelKind} {B : Backend}

/-- Whether a step gives the name to another scope, drops the records of its scope or gives that up. -/
def Step.replaces (name : String) : Step M B → Bool
  | start _ scope => scope = name
  | derive _ _ new => new = name
  | reset scope | reload scope | intoRecords scope => scope = name
  | _ => false

/-- The answer that the records of a scope give to a question, if they give any. -/
def Question.answerFrom? (rs : List M.Record) : Question M → Option (Answer M B)
  | records => some (.records (.ok rs))
  | size => some (.number (.ok rs.length))
  | isEmpty => some (.truth (.ok rs.isEmpty))
  | isNonempty | hasDocument => some (.truth (.ok !rs.isEmpty))
  | hasPassing test => some (.truth (.ok (rs.any test)))
  | first => some (.record (.ok rs.head?))
  | last => some (.record (.ok rs.getLast?))
  | item n => some (.record (.ok rs[n]?))
  | sameRecords ts => some (.truth (.ok (Session.sameRecordLists rs ts)))
  | _ => none

namespace Session

/-- A step of a run got the records and left the scope as it is. -/
def FilledBy (s : Session M B) (steps : List (Step M B)) (name : String) (scope : Scope M) (rs : List M.Record) : Prop :=
  ∃ earlier step rest before, steps = earlier ++ step :: rest ∧ step.Loads name ∧
    (s.after earlier).scope? name = some before ∧ (before.fetch (s.after earlier).world).1 = .ok rs ∧
    scope = { before with records := some rs }

/-- The scope of a name answers from the records, whatever is to be read off them, and the session stays as
it is. -/
structure AnswersFrom (s : Session M B) (name : String) (rs : List M.Record) : Prop where
  read : ∀ (α : Type) (answer : Except (QueryError M B) α → Answer M B) (f : List M.Record → α),
    (s.onScope name fun scope => s.askLoaded name scope answer f) = (answer (.ok (f rs)), s)
  asked : ∀ q answer, q.answerFrom? rs = some answer →
    s.step (.ask name q) = (⟨answer, some true, s.world⟩, s)
  givenUp : s.step (.intoRecords name) =
    (⟨.records (.ok rs), none, s.world⟩, { s with scopes := s.scopes.erase name })

/-- Counting makes the calls that the clauses of the scope ask for, whatever records it has, and leaves every scope
as it is. -/
structure CountsAnew (s : Session M B) (name : String) (scope : Scope M) : Prop where
  answer : ∀ records : Option (List M.Record), (s.step (.ask name .count)).1.answer =
    .number (({ scope with records := records } : Scope M).count s.world).1
  calls : (s.step (.ask name .count)).2.world.calls = s.world.calls ++ scope.executedCalls .count s.world
  world : (s.step (.ask name .count)).2.world = scope.executed .count s.world
  scopes : (s.step (.ask name .count)).2.scopes = s.scopes

/-! ### Staying loaded -/

variable {s : Session M B} {name : String} {scope : Scope M} {rs : List M.Record}

theorem scope?_perform_of_loaded {step : Step M B} (hscope : s.scope? name = some scope)
    (hloaded : scope.records = some rs) (hstep : step.replaces name = false) :
    (s.perform step).2.scope? name = some scope := by
  by_cases htarget : step.target? = some name
  · cases step with
    | work => cases htarget
    | start | derive | reset | reload | intoRecords =>
      cases htarget
      exact absurd rfl (of_decide_eq_false hstep)
    | ask other q =>
      cases htarget
      rw [perform_ask q hscope]
      cases hloads : q.loads with
      | true =>
        rw [ask_of_loads s name scope hloads, Scope.load_of_records _ hloaded]
        show (s.withScope name scope).scope? name = _
        rw [scope?_withScope, if_pos rfl]
      | false => rw [scope?, scopes_ask_of_not_loads s name scope hloads, ← scope?, hscope]
  · rw [scope?_perform_of_ne_target htarget, hscope]

theorem scope?_after_of_loaded {steps : List (Step M B)} (hscope : s.scope? name = some scope)
    (hloaded : scope.records = some rs) (hsteps : ∀ step ∈ steps, step.replaces name = false) : (s.after steps).scope? name = some scope := by
  induction steps generalizing s with
  | nil => exact hscope
  | cons step rest ih =>
    have hkept := scope?_perform_of_loaded hscope hloaded (hsteps step List.mem_cons_self)
    exact ih hkept fun later hlater => hsteps later (List.mem_cons_of_mem step hlater)

/-! ### Becoming loaded -/

theorem filledBy_append {steps : List (Step M B)} (later : List (Step M B)) (hfilled : s.FilledBy steps name scope rs) :
    s.FilledBy (steps ++ later) name scope rs := by
  obtain ⟨earlier, step, rest, before, rfl, hfilled⟩ := hfilled
  exact ⟨earlier, step, rest ++ later, before, by rw [List.append_assoc, List.cons_append], hfilled⟩

/-- Records are those of a load, as there is none when a session begins and no other step puts records in a scope. -/
theorem filledBy_of_loaded {w : World M B} {models : Entries String (Schema M)} {steps : List (Step M B)}
    (hscope : ((begun w models).after steps).scope? name = some scope) (hloaded : scope.records = some rs) :
    (begun w models).FilledBy steps name scope rs := by
  induction steps using List.reverseRecOn generalizing scope with
  | nil => cases hscope
  | append_singleton steps step ih =>
    rw [after_append] at hscope
    cases leaves_of_perform hscope with
    | kept hscope => exact filledBy_append [step] (ih hscope hloaded)
    | dropped hscope hstep => cases hloaded
    | loaded hstep hbefore hfetch =>
      cases hloaded
      exact ⟨steps, step, [], _, rfl, hstep, hbefore, hfetch, rfl⟩
    | started hstep hmodel => cases hloaded
    | derived hstep hscope hderived =>
      rw [records_derived hderived] at hloaded
      cases hloaded

/-! ### Answering -/

theorem askLoaded_of_loaded {α : Type} (hscope : s.scope? name = some scope) (hloaded : scope.records = some rs)
    (answer : Except (QueryError M B) α → Answer M B) (f : List M.Record → α) : s.askLoaded name scope answer f = (answer (.ok (f rs)), s) := by
  rw [askLoaded, Scope.load_of_records _ hloaded]
  show (_, s.withScope name scope) = _
  rw [withScope_of_scope? hscope]
  rfl

theorem ask_of_loaded {q : Question M} {answer : Answer M B} (hscope : s.scope? name = some scope)
    (hloaded : scope.records = some rs) (hanswer : q.answerFrom? rs = some answer) : s.ask name scope q = (answer, s) := by
  have hsize : scope.size s.world = (.ok rs.length, s.world) := by rw [Scope.size, hloaded]
  cases q with
  | records | hasPassing | last | item =>
    cases hanswer
    exact askLoaded_of_loaded hscope hloaded _ _
  | sameRecords ts =>
    cases hanswer
    rw [ask, askLoaded_of_loaded hscope hloaded]
    rfl
  | size =>
    cases hanswer
    rw [ask, askWorld, hsize]
  | isEmpty =>
    cases hanswer
    rw [ask, askWorld, Scope.isEmpty, hsize]
    cases rs <;> rfl
  | isNonempty =>
    cases hanswer
    rw [ask, askWorld, Scope.isNonempty, hsize]
    cases rs <;> rfl
  | hasDocument =>
    cases hanswer
    rw [ask, askWorld, Scope.hasDocument, hloaded]
  | first =>
    cases hanswer
    rw [ask, askWorld, Scope.first, hloaded]
  | criteria | compile | count | find | findBy | sameScope | source | model | description => cases hanswer

theorem answersFrom_of_loaded (hscope : s.scope? name = some scope) (hloaded : scope.records = some rs) :
    s.AnswersFrom name rs := by
  constructor
  · intro α answer f
    rw [onScope_of_scope? _ hscope, askLoaded_of_loaded hscope hloaded]
  · intro q answer hanswer
    have hperform : s.perform (.ask name q) = (answer, s) := by
      rw [perform_ask q hscope, ask_of_loaded hscope hloaded hanswer]
    have hstatus : (s.scope? name).map Scope.isLoaded = some true := by
      rw [hscope, Option.map_some, Scope.isLoaded, hloaded, Option.isSome_some]
    rw [step, hperform]
    show (Report.mk answer ((s.scope? name).map Scope.isLoaded) _, s) = _
    rw [hstatus]
  · have hperform : s.perform (.intoRecords name) =
        (.records (.ok rs), { s with scopes := s.scopes.erase name }) := by
      rw [perform, onScope_of_scope? _ hscope, Scope.intoRecords, hloaded]
    have hgone : (s.scopes.erase name).get? name = none := by rw [Entries.get?_erase, if_pos rfl]
    rw [step, hperform]
    show (Report.mk _ (((s.scopes.erase name).get? name).map Scope.isLoaded) _, _) = _
    rw [hgone, Option.map_none]

theorem countsAnew (hscope : s.scope? name = some scope) : s.CountsAnew name scope := by
  have hperform : s.perform (.ask name .count) =
      (.number (scope.count s.world).1, { s with world := (scope.count s.world).2 }) := by
    rw [perform_ask _ hscope]
    rfl
  have hworld : (s.step (.ask name .count)).2.world = scope.executed .count s.world := by
    rw [step, hperform]
    exact Scope.world_count scope s.world
  constructor
  · intro records
    rw [step, hperform]
    rfl
  · rw [hworld, Scope.calls_executed]
  · exact hworld
  · rw [step, hperform]

/-- Once a scope is loaded it stays loaded through every later run that does not replace it, and answers from
the records that a single load has got, to the last: no question to the records reaches the world. Counting alone
does, once each time, and has nothing to do with the records. -/
theorem loaded_after {w : World M B} {models : Entries String (Schema M)} {before later : List (Step M B)}
    {name : String} {scope : Scope M} {rs : List M.Record}
    (hscope : ((begun w models).after before).scope? name = some scope) (hloaded : scope.records = some rs)
    (hlater : ∀ step ∈ later, step.replaces name = false) :
    (begun w models).FilledBy before name scope rs ∧
    ((begun w models).after (before ++ later)).scope? name = some scope ∧
    ((begun w models).after (before ++ later)).AnswersFrom name rs ∧
    ((begun w models).after (before ++ later)).CountsAnew name scope := by
  have hkept : ((begun w models).after (before ++ later)).scope? name = some scope := by
    rw [after_append]
    exact scope?_after_of_loaded hscope hloaded hlater
  exact ⟨filledBy_of_loaded hscope hloaded, hkept, answersFrom_of_loaded hkept hloaded, countsAnew hkept⟩

/-! ### Three people, and a fourth -/

open Scope (person peopleDatabase)

/-- The people older than fifty are loaded. -/
def loadingElders : List Step :=
  [.start "Person" "all", .derive "all" (.having [(.operator ⟨"age", .known .above⟩, .string "50")]) "elders",
    .ask "elders" .records]

/-- Another person of that age comes, everybody is asked for, and then the collection cannot be reached. -/
def unsettlingElders : List Step :=
  [.insert "people" [("years", .int64 60)], .ask "all" .records, .setReachable "people" false,
    .derive "elders" .copy "again", .ask "again" .records, .ask "all" .count]

def loadedElders : Scope Model.kind :=
  { (Scope.all (person .once).schema).having [(.operator ⟨"age", .known .above⟩, .string "50")] with
    records := some [[("age", .integer 85), ("id", .integer 2)]] }

theorem loadedElders_after :
    (∀ step ∈ unsettlingElders, step.replaces "elders" = false) ∧
    ((start peopleDatabase [("Person", person .once)]).after (loadingElders ++ unsettlingElders)).scope? "elders" =
      some loadedElders ∧
    ((start peopleDatabase [("Person", person .once)]).after (loadingElders ++ unsettlingElders)).AnswersFrom "elders"
      [[("age", .integer 85), ("id", .integer 2)]] := by
  have hscope : ((start peopleDatabase [("Person", person .once)]).after loadingElders).scope? "elders" =
      some loadedElders := by rfl
  have hlater : ∀ step ∈ unsettlingElders, step.replaces "elders" = false := by decide
  obtain ⟨_, hkept, hanswers, _⟩ := loaded_after hscope rfl hlater
  exact ⟨hlater, hkept, hanswers⟩

end Session

end DocQuery
