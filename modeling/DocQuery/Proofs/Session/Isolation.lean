import DocQuery.Proofs.Scope.Evaluation
import DocQuery.Proofs.Session.Frame
import DocQuery.Session.Basic

/-!
# Deriving goes unnoticed

Deriving a scope only adds the scope to the session: the world hears nothing of it, and every other scope
stands as before. So a run is the same with and without derivations into names that it does not use. Two
sessions that differ in such names alone answer every other step alike, and go on differing in them alone; a
derivation into one of the names is a step that only one of the two sessions takes.
-/

namespace DocQuery

variable {M : ModelKind} {B : Backend}

/-- The names of scopes that a step uses, those it gives included. -/
def Step.names : Step M B → List String
  | start _ scope => [scope]
  | derive name (.merge other) new => [name, other, new]
  | derive name _ new => [name, new]
  | ask name (.sameScope other) => [name, other]
  | reset name | reload name | intoRecords name | ask name _ => [name]
  | work _ => []

/-- Whether a step uses none of the names. -/
def Step.avoids (fresh : List String) (step : Step M B) : Bool := step.names.all fun name => name ∉ fresh

/-- Whether a step derives a scope and gives it one of the names. -/
def Step.derivesInto (fresh : List String) : Step M B → Bool
  | derive _ _ new => new ∈ fresh
  | _ => false

theorem Step.mem_names_of_scope? {step : Step M B} {name : String} (hscope : step.scope? = some name) :
    name ∈ step.names := by
  cases step with
  | start | work => cases hscope
  | reset | reload | intoRecords =>
    cases hscope
    exact List.mem_cons_self
  | derive source d new =>
    cases hscope
    cases d <;> exact List.mem_cons_self
  | ask source q =>
    cases hscope
    cases q <;> exact List.mem_cons_self

theorem Step.not_mem_of_avoids {fresh : List String} {step : Step M B} {name : String} (havoids : step.avoids fresh = true)
    (hname : name ∈ step.names) : name ∉ fresh :=
  of_decide_eq_true (List.all_eq_true.mp havoids name hname)

namespace Session

/-- What a derivation needs beside its scope is there. -/
def Knows (s : Session M B) : Derivation → Prop
  | .readingFrom key => (B.name? s.world.store key).isSome
  | .merge other => (s.scope? other).isSome
  | _ => True

/-- Two sessions differ in the scopes of some names at most. -/
structure Agree (fresh : List String) (s t : Session M B) : Prop where
  world : s.world = t.world
  models : s.models = t.models
  scopes : ∀ name, name ∉ fresh → s.scope? name = t.scope? name

/-- Two outcomes give one answer and agree. -/
def Alike (fresh : List String) (x y : Answer M B × Session M B) : Prop := x.1 = y.1 ∧ Agree fresh x.2 y.2

variable {fresh : List String} {s t : Session M B}

/-! ### Deriving -/

theorem derived_of_knows {d : Derivation} (scope : Scope M) (hknows : s.Knows d) : ∃ t, s.derived scope d = .ok t := by
  cases d with
  | readingFrom key =>
    obtain ⟨source, hsource⟩ := Option.isSome_iff_exists.mp hknows
    exact ⟨scope.readingFrom ⟨key, source⟩, by rw [derived, hsource]⟩
  | merge other =>
    obtain ⟨u, hother⟩ := Option.isSome_iff_exists.mp hknows
    exact ⟨scope.merge u, by rw [derived, hother]⟩
  | _ => exact ⟨_, rfl⟩

/-! ### Agreement -/

theorem agree_refl (fresh : List String) (s : Session M B) : Agree fresh s s := ⟨rfl, rfl, fun _ _ => rfl⟩

theorem agree_withScope (name : String) (scope : Scope M) (hagree : Agree fresh s t) :
    Agree fresh (s.withScope name scope) (t.withScope name scope) := by
  refine ⟨hagree.world, hagree.models, fun other hother => ?_⟩
  rw [scope?_withScope, scope?_withScope, hagree.scopes other hother]

theorem agree_withWorld (w : World M B) (hagree : Agree fresh s t) :
    Agree fresh { s with world := w } { t with world := w } :=
  ⟨rfl, hagree.models, hagree.scopes⟩

theorem agree_erase (name : String) (hagree : Agree fresh s t) :
    Agree fresh { s with scopes := s.scopes.erase name } { t with scopes := t.scopes.erase name } := by
  refine ⟨hagree.world, hagree.models, fun other hother => ?_⟩
  show (s.scopes.erase name).get? other = (t.scopes.erase name).get? other
  rw [Entries.get?_erase, Entries.get?_erase, ← scope?, ← scope?, hagree.scopes other hother]

/-- A derivation into one of the names can be left out. -/
theorem agree_perform_derive {name new : String} (d : Derivation) (hagree : Agree fresh s t) (hnew : new ∈ fresh) :
    Agree fresh s (t.perform (.derive name d new)).2 := by
  refine ⟨?_, ?_, fun other hother => ?_⟩
  · rw [world_perform_derive, hagree.world]
  · rw [models_perform, hagree.models]
  · have hne : (Step.derive (M := M) (B := B) name d new).target? ≠ some other := by
      intro htarget
      cases htarget
      exact hother hnew
    rw [scope?_perform_of_ne_target hne, hagree.scopes other hother]

/-! ### Other steps -/

theorem alike_onScope {name : String} {f g : Scope M → Answer M B × Session M B} (hagree : Agree fresh s t)
    (hname : name ∉ fresh) (hf : ∀ scope, s.scope? name = some scope → Alike fresh (f scope) (g scope)) :
    Alike fresh (s.onScope name f) (t.onScope name g) := by
  have hscopes := hagree.scopes name hname
  cases hscope : s.scope? name with
  | none =>
    rw [hscope] at hscopes
    rw [onScope_of_unknown _ hscope, onScope_of_unknown _ hscopes.symm]
    exact ⟨rfl, hagree⟩
  | some scope =>
    rw [hscope] at hscopes
    rw [onScope_of_scope? _ hscope, onScope_of_scope? _ hscopes.symm]
    exact hf scope hscope

theorem alike_askLoaded {α : Type} (name : String) (scope : Scope M) (answer : Except (QueryError M B) α → Answer M B)
    (f : List M.Record → α) (hagree : Agree fresh s t) :
    Alike fresh (s.askLoaded name scope answer f) (t.askLoaded name scope answer f) := by
  rw [askLoaded, askLoaded, hagree.world]
  exact ⟨rfl, agree_withWorld _ (agree_withScope name _ hagree)⟩

theorem alike_askWorld {α : Type} (answer : Except (QueryError M B) α → Answer M B)
    (f : World M B → Except (QueryError M B) α × World M B) (hagree : Agree fresh s t) :
    Alike fresh (s.askWorld answer f) (t.askWorld answer f) := by
  rw [askWorld, askWorld, hagree.world]
  exact ⟨rfl, agree_withWorld _ hagree⟩

theorem alike_ask {name : String} {q : Question M} (scope : Scope M) (hagree : Agree fresh s t)
    (havoids : (Step.ask (B := B) name q).avoids fresh = true) :
    Alike fresh (s.ask name scope q) (t.ask name scope q) := by
  cases q with
  | records | hasPassing | last | item | sameRecords => exact alike_askLoaded _ _ _ _ hagree
  | count | size | isEmpty | isNonempty | hasDocument | first | find | findBy => exact alike_askWorld _ _ hagree
  | sameScope other =>
    have hother : other ∉ fresh := Step.not_mem_of_avoids havoids (by simp [Step.names])
    rw [ask, ask, hagree.scopes other hother]
    split <;> exact ⟨rfl, hagree⟩
  | criteria | compile | source | model | description => exact ⟨rfl, hagree⟩

theorem derived_of_agree {name new : String} {d : Derivation} (scope : Scope M) (hagree : Agree fresh s t)
    (havoids : (Step.derive (M := M) (B := B) name d new).avoids fresh = true) :
    s.derived scope d = t.derived scope d := by
  cases d with
  | readingFrom key => rw [derived, derived, hagree.world]
  | merge other =>
    have hother : other ∉ fresh := Step.not_mem_of_avoids havoids (by simp [Step.names])
    rw [derived, derived, hagree.scopes other hother]
  | _ => rfl

/-- A step that uses none of the names has the same outcome in sessions that differ in them at most. -/
theorem alike_perform {step : Step M B} (hagree : Agree fresh s t) (havoids : step.avoids fresh = true) :
    Alike fresh (s.perform step) (t.perform step) := by
  have hnamed : ∀ name, step.scope? = some name → name ∉ fresh := fun name hname =>
    Step.not_mem_of_avoids havoids (Step.mem_names_of_scope? hname)
  cases step with
  | start model scope =>
    rw [perform, perform, hagree.models]
    split
    · exact ⟨rfl, agree_withScope _ _ hagree⟩
    · exact ⟨rfl, hagree⟩
  | work change =>
    rw [perform, perform, hagree.world]
    exact ⟨rfl, agree_withWorld _ hagree⟩
  | derive name d new =>
    refine alike_onScope hagree (hnamed name rfl) fun scope hscope => ?_
    simp only [derived_of_agree scope hagree havoids]
    split
    · exact ⟨rfl, agree_withScope _ _ hagree⟩
    · exact ⟨rfl, hagree⟩
  | reset name =>
    exact alike_onScope hagree (hnamed name rfl) fun scope _ => ⟨rfl, agree_withScope _ _ hagree⟩
  | reload name =>
    exact alike_onScope hagree (hnamed name rfl) fun scope _ => alike_askLoaded _ _ _ _ hagree
  | intoRecords name =>
    refine alike_onScope hagree (hnamed name rfl) fun scope _ => ?_
    rw [hagree.world]
    exact ⟨rfl, agree_withWorld _ (agree_erase name hagree)⟩
  | ask name q =>
    exact alike_onScope hagree (hnamed name rfl) fun scope _ => alike_ask scope hagree havoids

/-! ### Runs -/

theorem step_of_agree {step : Step M B} (hagree : Agree fresh s t) (havoids : step.avoids fresh = true) :
    (s.step step).1 = (t.step step).1 ∧ Agree fresh (s.step step).2 (t.step step).2 := by
  obtain ⟨hanswer, hafter⟩ := alike_perform hagree havoids
  have hloaded : step.scope?.bind (s.perform step).2.scope? = step.scope?.bind (t.perform step).2.scope? := by
    cases hscope : step.scope? with
    | none => rfl
    | some name =>
      have hname := Step.not_mem_of_avoids havoids (Step.mem_names_of_scope? hscope)
      exact hafter.scopes name hname
  refine ⟨?_, hafter⟩
  show Report.mk (s.perform step).1 ((step.scope?.bind (s.perform step).2.scope?).map Scope.isLoaded)
    (s.perform step).2.world = _
  rw [hanswer, hloaded, hafter.world]
  rfl

/-- Derivations into names that the other steps of a run avoid can be left out of the run: the reports of the
other steps stay as they are. -/
theorem run_of_agree {steps : List (Step M B)} (hagree : Agree fresh s t)
    (hsteps : ∀ step ∈ steps, step.avoids fresh = true ∨ step.derivesInto fresh = true) :
    ((steps.zip (t.run steps)).filter fun e => e.1.avoids fresh).map Prod.snd = s.run (steps.filter (·.avoids fresh)) ∧
    Agree fresh (s.after (steps.filter (·.avoids fresh))) (t.after steps) := by
  induction steps generalizing s t with
  | nil => exact ⟨rfl, hagree⟩
  | cons step rest ih =>
    have hrest := fun later hlater => hsteps later (List.mem_cons_of_mem step hlater)
    cases havoids : step.avoids fresh with
    | true =>
      obtain ⟨hreport, hafter⟩ := step_of_agree hagree havoids
      obtain ⟨hreports, hend⟩ := ih hafter hrest
      rw [List.filter_cons_of_pos havoids, run, List.zip_cons_cons, List.filter_cons_of_pos (by exact havoids),
        List.map_cons, hreports, run, hreport]
      exact ⟨rfl, hend⟩
    | false =>
      have hderives := (hsteps step List.mem_cons_self).resolve_left (by rw [havoids]; exact Bool.false_ne_true)
      have hafter : Agree fresh s (t.step step).2 := by
        cases step with
        | derive name d new => exact agree_perform_derive d hagree (of_decide_eq_true hderives)
        | _ => cases hderives
      have hskip : ¬ step.avoids fresh = true := by rw [havoids]; exact Bool.false_ne_true
      rw [List.filter_cons_of_neg hskip, run, List.zip_cons_cons, List.filter_cons_of_neg (by exact hskip)]
      exact ih hafter hrest

/-- Every derivation whose names are known succeeds, whatever its clauses, with a scope that is not loaded; the
world and the scopes of other names stay as they are. So derivations into names of their own can be woven
into any run, and no report of the other steps shows it. -/
theorem deriving_unnoticed :
    (∀ (s : Session M B) (name new : String) (scope : Scope M) (d : Derivation), s.scope? name = some scope → s.Knows d →
      ∃ t : Scope M, s.derived scope d = .ok t ∧ t.records = none ∧
        (s.step (.derive name d new)).1.answer = .criteria t.criteria ∧
        (s.step (.derive name d new)).1.world = s.world ∧
        (s.step (.derive name d new)).2.world = s.world ∧
        (s.step (.derive name d new)).2.models = s.models ∧
        (s.step (.derive name d new)).2.scope? new = some t ∧
        ∀ other, other ≠ new → (s.step (.derive name d new)).2.scope? other = s.scope? other) ∧
    (∀ (s : Session M B) (fresh : List String) (steps : List (Step M B)),
      (∀ step ∈ steps, step.avoids fresh = true ∨ step.derivesInto fresh = true) →
      ((steps.zip (s.run steps)).filter fun e => e.1.avoids fresh).map Prod.snd =
        s.run (steps.filter (·.avoids fresh))) := by
  refine ⟨?_, fun s fresh steps hsteps => (run_of_agree (agree_refl fresh s) hsteps).1⟩
  intro s name new scope d hscope hknows
  obtain ⟨t, hderived⟩ := derived_of_knows scope hknows
  have hperform := perform_derive new hscope hderived
  have hafter : (s.step (.derive name d new)).2 = s.withScope new t := congrArg Prod.snd hperform
  have hleft : (s.step (.derive name d new)).1.world = (s.step (.derive name d new)).2.world := rfl
  refine ⟨t, hderived, records_derived hderived, congrArg Prod.fst hperform, ?_⟩
  rw [hleft, hafter]
  refine ⟨rfl, rfl, rfl, ?_, ?_⟩
  · rw [scope?_withScope, if_pos rfl]
  · intro other hother
    rw [scope?_withScope, if_neg (Ne.symm hother)]

/-! ### Three people, and names for nothing -/

open Scope (person peopleDatabase)

/-- Everybody is loaded and asked for again, while scopes of no use are derived, of which one cannot run. -/
def wovenSteps : List Step :=
  [.start "Person" "all", .derive "all" (.orderBy [.expression "age sideways"]) "lost", .ask "all" .records,
    .derive "all" (.merge "lost") "found", .ask "all" .size, .derive "lost" (.readingFrom "people") "found",
    .reset "all", .derive "found" .copy "lost", .ask "all" .count]

theorem wovenSteps_unnoticed :
    (∀ step ∈ wovenSteps, step.avoids ["lost", "found"] = true ∨ step.derivesInto ["lost", "found"] = true) ∧
    (((wovenSteps.zip ((start peopleDatabase [("Person", person .once)]).run wovenSteps)).filter
      fun e => e.1.avoids ["lost", "found"]).map Prod.snd =
        (start peopleDatabase [("Person", person .once)]).run
          [.start "Person" "all", .ask "all" .records, .ask "all" .size, .reset "all", .ask "all" .count]) ∧
    (∃ t : Scope Model.kind, t.records = none ∧ t.compile = .error (.invalidOrder "age sideways") ∧
      ((start peopleDatabase [("Person", person .once)]).after (wovenSteps.take 2)).scope? "lost" = some t) := by
  have hsteps : ∀ step ∈ wovenSteps, step.avoids ["lost", "found"] = true ∨
      step.derivesInto ["lost", "found"] = true := by decide
  refine ⟨hsteps, deriving_unnoticed.2 _ _ _ hsteps, ?_⟩
  obtain ⟨t, hderived, hunloaded, _, _, _, _, hnew, _⟩ := deriving_unnoticed.1
    ((start peopleDatabase [("Person", person .once)]).after (wovenSteps.take 1)) "all" "lost"
    (Scope.all (person .once).schema) (.orderBy [.expression "age sideways"]) rfl trivial
  cases hderived
  exact ⟨_, hunloaded, rfl, hnew⟩

end Session

end DocQuery
