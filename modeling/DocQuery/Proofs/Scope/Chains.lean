import DocQuery.Proofs.Scope.Evaluation

/-!
# Chains of calls

A chain of calls puts a scope together clause by clause. A call changes one clause and leaves the other five alone, and
what it makes of its own clause is up to that clause. So what a chain leaves in a clause is what its calls on that clause
leave, and two chains with the same calls on each clause, in the same order, lead to one scope. Swapping calls on
different clauses and leaving out the calls on a clause that is cleared in the end are cases of this.
-/

namespace DocQuery

/-- A call that adds to a clause of a scope, sets it or clears it. -/
inductive Call where
  | having (cs : Conditions)
  | orderBy (terms : List SortTerm)
  | selecting (fields : List String)
  | limitedTo (n : Nat)
  | skipping (n : Nat)
  | readingFrom (source : Source)
  | without (clause : Clause)

namespace Call

/-- The clause that a call is on. -/
def clause : Call → Clause
  | having _ => .conditions
  | orderBy _ => .order
  | selecting _ => .select
  | limitedTo _ => .limit
  | skipping _ => .offset
  | readingFrom _ => .source
  | without clause => clause

/-- Whether a call adds to a clause or sets it. -/
def gives (call : Call) (clause : Clause) : Bool :=
  match call with
  | without _ => false
  | _ => call.clause = clause

theorem clause_eq_of_gives {call : Call} {clause : Clause} (hgives : call.gives clause = true) : call.clause = clause := by
  cases call with
  | without => cases hgives
  | _ => exact of_decide_eq_true hgives

/-- The scope that a call makes of another. -/
def on {M : ModelKind} (call : Call) (s : Scope M) : Scope M :=
  match call with
  | having cs => s.having cs
  | orderBy terms => s.orderBy terms
  | selecting fields => s.selecting fields
  | limitedTo n => s.limitedTo n
  | skipping n => s.skipping n
  | readingFrom source => s.readingFrom source
  | without clause => s.without clause

end Call

namespace Scope

variable {M : ModelKind}

/-- The scope that a chain of calls makes of another. -/
def chained (s : Scope M) : List Call → Scope M
  | [] => s
  | call :: rest => (call.on s).chained rest

/-- Whether two scopes have the same in a clause. -/
def Shares (clause : Clause) (s t : Scope M) : Prop :=
  match clause with
  | .select => s.select = t.select
  | .order => s.order = t.order
  | .conditions => s.conditions = t.conditions
  | .limit => s.limit = t.limit
  | .offset => s.offset = t.offset
  | .source => s.source = t.source

variable {clause : Clause} {s t u : Scope M} {call : Call} {calls others : List Call}

theorem Shares.refl (clause : Clause) (s : Scope M) : Shares clause s s := by cases clause <;> rfl

theorem Shares.symm (h : Shares clause s t) : Shares clause t s := by cases clause <;> exact Eq.symm h

theorem Shares.trans (hst : Shares clause s t) (htu : Shares clause t u) : Shares clause s u := by
  cases clause <;> exact Eq.trans hst htu

/-! ### One call -/

theorem model_on (call : Call) (s : Scope M) : (call.on s).model = s.model := by
  cases call with
  | without clause => cases clause <;> rfl
  | _ => rfl

/-- A call leaves the clauses that it is not on alone. -/
theorem shares_on (hcall : call.clause ≠ clause) (s : Scope M) : Shares clause (call.on s) s := by
  cases call with
  | without cleared =>
    cases cleared <;> cases clause <;> first | rfl | exact absurd rfl hcall
  | _ => cases clause <;> first | rfl | exact absurd rfl hcall

/-- What a call makes of a clause is up to what was there. -/
theorem Shares.on (call : Call) (h : Shares clause s t) : Shares clause (call.on s) (call.on t) := by
  by_cases hcall : call.clause = clause
  · subst hcall
    cases call with
    | having cs => exact congrArg (· ++ [cs]) h
    | orderBy terms => exact congrArg (· ++ terms) h
    | selecting fields => exact congrArg (· ++ fields) h
    | limitedTo | skipping | readingFrom => rfl
    | without cleared => cases cleared <;> rfl
  · exact ((shares_on hcall s).trans h).trans (shares_on hcall t).symm

/-- Clearing a clause leaves the others alone. -/
theorem shares_without_of_ne {other : Clause} (hother : other ≠ clause) (s : Scope M) :
    Shares other (s.without clause) s :=
  have hcall : (Call.without clause).clause ≠ other := Ne.symm hother
  shares_on hcall s

/-- A cleared clause is that of a scope without clauses. -/
theorem shares_without (clause : Clause) (s : Scope M) : Shares clause (s.without clause) (all s.model) := by
  cases clause <;> rfl

/-! ### Chains -/

theorem model_chained (s : Scope M) (calls : List Call) : (s.chained calls).model = s.model := by
  induction calls generalizing s with
  | nil => rfl
  | cons call rest ih => rw [chained, ih, model_on]

theorem records_on (call : Call) (s : Scope M) : (call.on s).records = none := by
  cases call with
  | without clause => cases clause <;> rfl
  | _ => rfl

theorem records_chained (hunloaded : s.records = none) (calls : List Call) : (s.chained calls).records = none := by
  induction calls generalizing s with
  | nil => exact hunloaded
  | cons call rest ih => exact ih (records_on call s)

theorem Shares.chained (h : Shares clause s t) (calls : List Call) : Shares clause (s.chained calls) (t.chained calls) := by
  induction calls generalizing s t with
  | nil => exact h
  | cons call rest ih => exact ih (h.on call)

/-- Calls that are not on a clause can be left out of a chain as far as the clause is concerned. -/
theorem shares_chained_filter {keeps : Call → Bool} (hkeeps : ∀ call, call.clause = clause → keeps call = true)
    (s : Scope M) (calls : List Call) : Shares clause (s.chained calls) (s.chained (calls.filter keeps)) := by
  induction calls generalizing s with
  | nil => exact Shares.refl clause s
  | cons call rest ih =>
    rw [List.filter_cons]
    split
    · exact ih (call.on s)
    · next hdropped =>
      have hcall : call.clause ≠ clause := fun heq => hdropped (hkeeps call heq)
      exact ((shares_on hcall s).chained rest).trans (ih s)

/-- What a chain leaves in a clause is up to its calls on the clause. -/
theorem shares_chained_of_filter
    (hcalls : calls.filter (·.clause = clause) = others.filter (·.clause = clause)) (s : Scope M) :
    Shares clause (s.chained calls) (s.chained others) := by
  have hown : ∀ calls : List Call, Shares clause (s.chained calls) (s.chained (calls.filter (·.clause = clause))) :=
    shares_chained_filter (fun _ => decide_eq_true) s
  have hcalls' := hown calls
  rw [hcalls] at hcalls'
  exact hcalls'.trans (hown others).symm

/-- Without a call that adds to a clause or sets it, what is cleared stays cleared. -/
theorem shares_chained_of_cleared (hgives : ∀ call ∈ calls, call.gives clause = false)
    (hcleared : Shares clause s (all s.model)) : Shares clause (s.chained calls) (all s.model) := by
  induction calls generalizing s with
  | nil => exact hcleared
  | cons call rest ih =>
    obtain ⟨hcall, hrest⟩ := List.forall_mem_cons.mp hgives
    rw [← model_on call s] at hcleared ⊢
    refine ih hrest ?_
    by_cases hclause : call.clause = clause
    · cases call with
      | without cleared => exact hclause ▸ shares_without cleared s
      | _ => exact absurd (decide_eq_true hclause) (Bool.eq_false_iff.mp hcall)
    · exact (shares_on hclause s).trans hcleared

/-! ### Scopes clause by clause -/

/-- Unloaded scopes on one model that have the same in all clauses are the same. -/
theorem eq_of_shares (hmodel : s.model = t.model) (hs : s.records = none) (ht : t.records = none)
    (hshares : ∀ clause, Shares clause s t) : s = t := by
  obtain ⟨model, select, order, conditions, limit, offset, source, records⟩ := s
  obtain ⟨model', select', order', conditions', limit', offset', source', records'⟩ := t
  cases hmodel
  cases hs
  cases ht
  rw [mk.injEq]
  exact ⟨rfl, hshares .select, hshares .order, hshares .conditions, hshares .limit, hshares .offset, hshares .source, rfl⟩

/-- Chains with the same calls on each clause lead to the same scope. -/
theorem chained_eq_of_filter (hcalls : calls ≠ []) (hothers : others ≠ [])
    (hfilter : ∀ clause, calls.filter (·.clause = clause) = others.filter (·.clause = clause)) (s : Scope M) :
    s.chained calls = s.chained others := by
  have hrecords : ∀ {calls : List Call}, calls ≠ [] → (s.chained calls).records = none := by
    intro calls hcalls
    cases calls with
    | nil => exact absurd rfl hcalls
    | cons call rest => exact records_chained (records_on call s) rest
  exact eq_of_shares (by rw [model_chained, model_chained]) (hrecords hcalls) (hrecords hothers)
    fun clause => shares_chained_of_filter (hfilter clause) s

theorem filter_swap {x y : Call} (hclauses : x.clause ≠ y.clause) (earlier later : List Call) (clause : Clause) :
    (earlier ++ x :: y :: later).filter (·.clause = clause) = (earlier ++ y :: x :: later).filter (·.clause = clause) := by
  by_cases hx : x.clause = clause
  · have hy : ¬ y.clause = clause := fun hy => hclauses (hx.trans hy.symm)
    simp [hx, hy]
  · simp [List.filter_cons, hx]

/-- Leaving the calls that give something to a clause out of a chain, and clearing the clause before it, is clearing the
clause after the chain. -/
theorem without_chained {keeps : Call → Bool} (hgives : ∀ call, call.gives clause = true → keeps call = false)
    (hkeeps : ∀ call, call.clause ≠ clause → keeps call = true) (s : Scope M) (calls : List Call) :
    (s.chained calls).without clause = (s.without clause).chained (calls.filter keeps) := by
  have hmodel : (s.without clause).model = s.model := model_on (.without clause) s
  refine eq_of_shares ?_ (records_on (.without clause) _) (records_chained (records_on (.without clause) s) _) fun other => ?_
  · rw [model_chained, hmodel]
    exact (model_on (.without clause) _).trans (model_chained s calls)
  · by_cases hother : clause = other
    · subst hother
      have hcleared : Shares clause ((s.without clause).chained (calls.filter keeps)) (all s.model) := by
        rw [← hmodel]
        refine shares_chained_of_cleared (fun call hcall => ?_) (hmodel ▸ shares_without clause s)
        exact Bool.eq_false_iff.mpr fun hgive => by simp [hgives call hgive] at hcall
      have hlast := shares_without clause (s.chained calls)
      rw [model_chained] at hlast
      exact hlast.trans hcleared.symm
    · have hframe : ∀ t : Scope M, Shares other (t.without clause) t := shares_without_of_ne (Ne.symm hother)
      have hdropped : Shares other (s.chained calls) (s.chained (calls.filter keeps)) :=
        shares_chained_filter (fun call hcall => hkeeps call (hcall ▸ Ne.symm hother)) s calls
      exact ((hframe _).trans hdropped).trans ((hframe s).symm.chained _)

/-- Two neighbouring calls on different clauses can be swapped anywhere in a chain: the scope is the same, so its criteria
and its collection are. Clearing a clause after a chain is clearing it before the chain and leaving the calls out that
add to it or set it, or all calls on it; the clause is then as in a scope without clauses and the others are as the chain
left them. -/
theorem clauses_independent :
    (∀ (s : Scope M) (earlier later : List Call) (x y : Call), x.clause ≠ y.clause →
      s.chained (earlier ++ x :: y :: later) = s.chained (earlier ++ y :: x :: later)) ∧
    (∀ (s : Scope M) (calls : List Call) (clause : Clause),
      (s.chained calls).without clause = (s.without clause).chained (calls.filter fun call => !call.gives clause) ∧
      (s.chained calls).without clause = (s.without clause).chained (calls.filter fun call => call.clause ≠ clause) ∧
      Shares clause ((s.chained calls).without clause) (all s.model) ∧
      ∀ other, other ≠ clause → Shares other ((s.chained calls).without clause) (s.chained calls)) := by
  refine ⟨fun s earlier later x y hclauses => ?_, fun s calls clause => ⟨?_, ?_, ?_, fun other hother => ?_⟩⟩
  · exact chained_eq_of_filter (by simp) (by simp) (filter_swap hclauses earlier later) s
  · refine without_chained (fun call hgives => by rw [hgives, Bool.not_true]) (fun call hcall => ?_) s calls
    rw [Bool.not_eq_true', Bool.eq_false_iff]
    exact mt Call.clause_eq_of_gives hcall
  · refine without_chained (fun call hgives => ?_) (fun call hcall => decide_eq_true hcall) s calls
    exact decide_eq_false (not_not_intro (Call.clause_eq_of_gives hgives))
  · have hcleared := shares_without clause (s.chained calls)
    rwa [model_chained] at hcleared
  · exact shares_without_of_ne hother _

/-! ### A chain on the younger adults -/

/-- The limit is set twice, and in between the offset of the scope is cleared. -/
def narrowing : List Call :=
  [.selecting ["age"], .limitedTo 5, .without .offset, .readingFrom ⟨"pets", "pets"⟩, .limitedTo 2, .skipping 7]

theorem youngerAdults_narrowed :
    (youngerAdults .once).chained narrowing =
      (youngerAdults .once).chained
        [.selecting ["age"], .limitedTo 5, .without .offset, .limitedTo 2, .readingFrom ⟨"pets", "pets"⟩, .skipping 7] ∧
    ((youngerAdults .once).chained narrowing).without .offset =
      ((youngerAdults .once).without .offset).chained
        [.selecting ["age"], .limitedTo 5, .without .offset, .readingFrom ⟨"pets", "pets"⟩, .limitedTo 2] ∧
    Shares .limit (((youngerAdults .once).chained narrowing).without .offset) ((youngerAdults .once).chained narrowing) := by
  obtain ⟨hcleared, -, -, hothers⟩ := clauses_independent.2 (youngerAdults .once) narrowing .offset
  exact ⟨clauses_independent.1 _ [.selecting ["age"], .limitedTo 5, .without .offset] [.skipping 7]
    (.readingFrom ⟨"pets", "pets"⟩) (.limitedTo 2) (by decide), hcleared, hothers .limit (by decide)⟩

end Scope

end DocQuery
