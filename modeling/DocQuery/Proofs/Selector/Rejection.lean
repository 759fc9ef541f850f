import DocQuery.Selector.Match

/-!
# What makes a selector fail

An operator looks at its operand before it looks at the value, so whether it fails is up to the operand
alone. Demands are tested in order, up to the first that is not met. A document therefore is turned down
before the first malformed demand, or comes to it and gets the error of that demand; none gets past it. So a
selector has one error at most, and a selector that has one matches no document whatever.
-/

namespace DocQuery

namespace Selector

variable {ε α β : Type}

/-- A test can be made of everything, or it has a single error and nothing passes it. -/
def Uniform (test : α → Except ε Bool) : Prop :=
  (∀ a, ∃ passed, test a = .ok passed) ∨ ∃ e, ∀ a, test a = .ok false ∨ test a = .error e

theorem Uniform.error_unique {test : α → Except ε Bool} (huniform : Uniform test) {a b : α} {e f : ε}
    (ha : test a = .error e) (hb : test b = .error f) : e = f := by
  rcases huniform with htotal | ⟨g, hsole⟩
  · obtain ⟨passed, hpassed⟩ := htotal a
    rw [hpassed] at ha
    cases ha
  · have hge : ∀ {c : α} {e : ε}, test c = .error e → e = g := by
      intro c e hc
      rcases hsole c with hfailed | herror
      · rw [hfailed] at hc
        cases hc
      · rw [herror] at hc
        cases hc
        rfl
    rw [hge ha, hge hb]

theorem Uniform.ne_true_of_error {test : α → Except ε Bool} (huniform : Uniform test) {a : α} {e : ε}
    (ha : test a = .error e) (b : α) : test b ≠ .ok true := by
  intro hb
  rcases huniform with htotal | ⟨g, hsole⟩
  · obtain ⟨passed, hpassed⟩ := htotal a
    rw [hpassed] at ha
    cases ha
  · rcases hsole b with hfailed | herror
    · rw [hfailed] at hb
      cases hb
    · rw [herror] at hb
      cases hb

theorem Uniform.comp {test : α → Except ε Bool} (huniform : Uniform test) (f : β → α) :
    Uniform fun b => test (f b) :=
  huniform.imp (fun htotal b => htotal (f b)) fun ⟨e, hsole⟩ => ⟨e, fun b => hsole (f b)⟩

/-! ### Operators -/

theorem uniform_ok (f : α → Bool) : Uniform (ε := ε) fun a => .ok (f a) := .inl fun a => ⟨f a, rfl⟩

/-- A test that goes by an operand fails just if the operand does. -/
theorem uniform_map (operand : Except ε β) (f : α → β → Bool) : Uniform fun a => operand.map (f a) := by
  cases operand with
  | ok b => exact uniform_ok fun a => f a b
  | error e => exact .inr ⟨e, fun _ => .inr rfl⟩

theorem uniform_evaluate (c : Comparison) (operand : StoreValue) :
    Uniform fun value => evaluate value c operand := by
  cases c with
  | equal | unequal | above | atLeast | below | atMost | present => exact uniform_ok _
  | oneOf => exact uniform_map (operandItems .oneOf operand) fun value items => items.any (holds value)
  | noneOf => exact uniform_map (operandItems .noneOf operand) fun value items => !items.any (holds value)
  | allOf => exact uniform_map (operandItems .allOf operand) holdsAll
  | size =>
    simp only [evaluate]
    cases operand.integer? with
    | some n => exact uniform_ok fun value => hasLength value n
    | none => exact .inr ⟨_, fun _ => .inr rfl⟩
  | remainder =>
    simp only [evaluate]
    cases operandItems .remainder operand with
    | error e => exact .inr ⟨e, fun _ => .inr rfl⟩
    | ok items =>
      exact uniform_map (divisorRemainder operand items) fun (value : Option StoreValue) pair =>
        (value.bind wholeNumber?).any fun n => n % pair.1 = pair.2

theorem uniform_evaluateToken (token : String) (operand : StoreValue) :
    Uniform fun value => evaluateToken value token operand := by
  simp only [evaluateToken]
  cases Comparison.ofToken? token with
  | some c => exact uniform_evaluate c operand
  | none => exact .inr ⟨_, fun _ => .inr rfl⟩

/-! ### Tests in order -/

/-- A second test that is made of what passes the first: where the first has an error, nothing comes to the
second, and otherwise the error of the second is all that is to be had. -/
theorem Uniform.andThen {first second : α → Except ε Bool} (hfirst : Uniform first) (hsecond : Uniform second) :
    Uniform fun a => match first a with
      | .ok true => second a
      | other => other := by
  rcases hfirst with htotal | ⟨e, hsole⟩
  · rcases hsecond with hrest | ⟨e, hrest⟩
    · refine .inl fun a => ?_
      obtain ⟨_ | _, ha⟩ := htotal a
      · exact ⟨false, by simp only [ha]⟩
      · simpa only [ha] using hrest a
    · refine .inr ⟨e, fun a => ?_⟩
      obtain ⟨_ | _, ha⟩ := htotal a
      · exact .inl (by simp only [ha])
      · simpa only [ha] using hrest a
  · refine .inr ⟨e, fun a => ?_⟩
    rcases hsole a with ha | ha
    · exact .inl (by simp only [ha])
    · exact .inr (by simp only [ha])

theorem uniform_allOk {test : β → α → Except ε Bool} (htest : ∀ b, Uniform (test b)) (tests : List β) :
    Uniform fun a => allOk (fun b => test b a) tests := by
  induction tests with
  | nil => exact uniform_ok fun _ => true
  | cons b rest ih => exact (htest b).andThen ih

theorem uniform_meets (demand : StoreValue) : Uniform fun value => meets value demand := by
  cases demand with
  | document fields =>
    simp only [meets]
    split
    · exact uniform_allOk (fun e => uniform_evaluateToken e.1 e.2) fields
    · exact uniform_ok fun value => holds value (.document fields)
  | _ => exact uniform_ok _

/-- Whether a selector can be tested does not depend on the document. -/
theorem uniform_satisfies (selector : Document) : Uniform fun d : Document => d.satisfies selector := by
  have hfield : ∀ e : String × StoreValue, Uniform fun d : Document => meets (d.lookUp? e.1) e.2 :=
    fun e => (uniform_meets e.2).comp fun d : Document => d.lookUp? e.1
  exact uniform_allOk hfield selector

end Selector

end DocQuery
