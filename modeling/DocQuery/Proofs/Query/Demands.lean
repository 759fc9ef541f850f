import DocQuery.Proofs.Entries.Writing
import DocQuery.Proofs.Outcomes
import DocQuery.Query.Compile

/-!
# What a set of conditions asks

Whether a set of conditions compiles is up to its subjects, and what it then asks of a stored field is up to the
conditions on that field alone. So the compiled selector is one that can be written down whether or not the conditions
compile: each condition writes its demand under the stored name of its field, over an earlier one if there is one.
-/

namespace DocQuery

/-- What keeps a condition on a subject from being compiled. -/
def Subject.fault? : Subject → Option CompileError
  | .field _ => none
  | .operator op =>
    match op.comparator with
    | .known _ => none
    | .unrecognized _ => some (.invalidOperator op.text)

namespace Query

variable (ps : Properties)

def target (c : Subject × Value) : String := ps.resolve c.1.fieldName

def targets (cs : Conditions) : List String := cs.map (target ps)

/-- What a condition asks of its field if it can be compiled. -/
def demand (c : Subject × Value) : StoreValue :=
  match c.1 with
  | .field name => ps.toStore name c.2
  | .operator op => .document [("$" ++ op.comparator.text, operand ps op c.2)]

/-- What a set of conditions asks of each stored field if it can be compiled. -/
def demands (cs : Conditions) : Document := Entries.ofList (cs.map fun c => (target ps c, demand ps c))

def fault? (cs : Conditions) : Option CompileError := cs.findSome? fun c => c.1.fault?

variable {ps} {cs ds : Conditions}

/-! ### Compiling -/

theorem selectorEntry_eq (c : Subject × Value) :
    selectorEntry ps c = match c.1.fault? with
      | none => .ok (target ps c, demand ps c)
      | some e => .error e := by
  obtain ⟨subject, v⟩ := c
  cases subject with
  | field name => rfl
  | operator op =>
    obtain ⟨field, comparator⟩ := op
    cases comparator <;> rfl

theorem selectorOf_eq (ps : Properties) (cs : Conditions) :
    selectorOf ps cs = match fault? cs with
      | none => .ok (demands ps cs)
      | some e => .error e := by
  have hentries : cs.mapM (selectorEntry ps) = match fault? cs with
      | none => .ok (cs.map fun c => (target ps c, demand ps c))
      | some e => .error e := by
    induction cs with
    | nil => rfl
    | cons c rest ih =>
      rw [List.mapM_cons, selectorEntry_eq, ih, fault?, fault?, List.findSome?_cons]
      cases c.1.fault? with
      | some e => rfl
      | none => cases rest.findSome? fun c => c.1.fault? <;> rfl
  rw [selectorOf, hentries]
  cases fault? cs <;> rfl

theorem selectorOf_eq_ok_iff {selector : Document} :
    selectorOf ps cs = .ok selector ↔ fault? cs = none ∧ demands ps cs = selector := by
  rw [selectorOf_eq]
  cases fault? cs <;> simp

theorem fault?_append : fault? (cs ++ ds) = (fault? cs).or (fault? ds) := List.findSome?_append

/-! ### One field at a time -/

theorem keys_entries (cs : Conditions) : Entries.keys (cs.map fun c => (target ps c, demand ps c)) = targets ps cs :=
  List.map_map ..

theorem nodup_keys_demands (cs : Conditions) : (demands ps cs).keys.Nodup := Entries.nodup_keys_ofList _

theorem mem_keys_demands {name : String} : name ∈ (demands ps cs).keys ↔ name ∈ targets ps cs := by
  rw [demands, Entries.mem_keys_ofList, keys_entries]

/-- What is asked of a field is up to the conditions on it. -/
theorem get?_demands (ps : Properties) (cs : Conditions) (name : String) :
    (demands ps cs).get? name = (demands ps (cs.filter fun c => target ps c = name)).get? name := by
  have hname : decide (name = name) = true := decide_eq_true rfl
  rw [← Entries.get?_filter (p := fun key => decide (key = name)) hname, demands,
    Entries.filter_ofList fun key => decide (key = name), List.filter_map]
  rfl

/-- Conditions that are on other fields than those before them add their demands at the end. -/
theorem demands_append (hapart : (targets ps cs).Disjoint (targets ps ds)) :
    demands ps (cs ++ ds) = demands ps cs ++ demands ps ds := by
  rw [demands, List.map_append, Entries.ofList_append_of_disjoint]
  · rfl
  · rw [keys_entries, keys_entries]
    exact fun name hds hcs => hapart hcs hds

/-! ### Adding conditions -/

theorem mem_targets {name : String} : name ∈ targets ps cs ↔ ∃ c ∈ cs, target ps c = name := List.mem_map

theorem merge_of_apart (hapart : (targets ps cs).Disjoint (targets ps ds)) : cs.merge ds = cs ++ Entries.ofList ds := by
  apply Entries.putAll_of_disjoint
  intro subject hds hcs
  obtain ⟨d, hd, rfl⟩ := List.mem_map.mp hds
  obtain ⟨c, hc, hsubject⟩ := List.mem_map.mp hcs
  have htarget : target ps c = target ps d := by rw [target, hsubject, target]
  exact hapart (mem_targets.mpr ⟨c, hc, htarget⟩) (mem_targets.mpr ⟨d, hd, rfl⟩)

theorem mem_targets_merge {name : String} :
    name ∈ targets ps (cs.merge ds) ↔ name ∈ targets ps cs ∨ name ∈ targets ps ds := by
  have hsubjects : ∀ cs : Conditions, targets ps cs = cs.keys.map fun subject => ps.resolve subject.fieldName :=
    fun cs => by rw [Entries.keys, List.map_map]; rfl
  simp only [hsubjects, List.mem_map, Conditions.merge, Entries.mem_keys_putAll, or_and_right, exists_or]

theorem mem_targets_ofList {name : String} : name ∈ targets ps (Entries.ofList cs) ↔ name ∈ targets ps cs := by
  have hmerge : name ∈ targets ps (Conditions.merge [] cs) ↔ name ∈ targets ps [] ∨ name ∈ targets ps cs :=
    mem_targets_merge
  exact hmerge.trans (or_iff_right List.not_mem_nil)

theorem filter_merge (ps : Properties) (cs ds : Conditions) (name : String) :
    (cs.merge ds).filter (fun c => target ps c = name) =
      Conditions.merge (cs.filter fun c => target ps c = name) (ds.filter fun c => target ps c = name) :=
  Entries.filter_putAll (fun subject : Subject => decide (ps.resolve subject.fieldName = name)) cs ds

/-- What is asked of a field does not depend on the order of two sets of conditions that do not meet. -/
theorem get?_demands_merge_comm (es : Conditions) (hapart : (targets ps cs).Disjoint (targets ps ds)) (name : String) :
    (demands ps ((es.merge cs).merge ds)).get? name = (demands ps ((es.merge ds).merge cs)).get? name := by
  have hnone : ∀ fs : Conditions, name ∉ targets ps fs → fs.filter (fun c => target ps c = name) = [] :=
    fun fs hname => List.filter_eq_nil_iff.mpr fun c hc hon =>
      hname (mem_targets.mpr ⟨c, hc, of_decide_eq_true hon⟩)
  -- Of two sets that do not meet, at most one has conditions on the field, so there is nothing to put in order.
  rw [get?_demands, get?_demands ps ((es.merge ds).merge cs)]
  simp only [filter_merge]
  by_cases hname : name ∈ targets ps cs
  · rw [hnone ds (hapart hname)]
    rfl
  · rw [hnone cs hname]
    rfl

/-! ### A plain condition -/

theorem get?_demands_cons (c : Subject × Value) (cs : Conditions) (name : String) :
    (demands ps (c :: cs)).get? name =
      ((demands ps cs).get? name).or (if target ps c = name then some (demand ps c) else none) :=
  Entries.get?_ofList_cons name (target ps c, demand ps c) _

theorem get?_demands_put_of_ne (cs : Conditions) {field name : String} (v : Value) (hname : name ≠ ps.resolve field) :
    (demands ps (cs.put (.field field) v)).get? name = (demands ps cs).get? name := by
  have hfield : ¬ decide (ps.resolve (Subject.field field).fieldName = name) = true :=
    fun hfield => hname (of_decide_eq_true hfield).symm
  have hothers := Entries.filter_put (fun subject : Subject => decide (ps.resolve subject.fieldName = name))
    (.field field) v cs
  rw [if_neg hfield] at hothers
  rw [get?_demands, get?_demands ps cs]
  exact congrArg (fun cs => (demands ps cs).get? name) hothers

theorem get?_demands_of_not_mem {name : String} (hname : name ∉ targets ps cs) : (demands ps cs).get? name = none :=
  Entries.get?_eq_none_iff.mpr (mem_keys_demands.not.mpr hname)

/-- A plain condition that is added is what is asked of its field, if the conditions have none on the same stored field
after a plain one whose place it takes. -/
theorem get?_demands_put (ps : Properties) (cs : Conditions) (field : String) (v : Value)
    (hlast : ∀ before w after, cs = before ++ (.field field, w) :: after → ps.resolve field ∉ targets ps after) :
    (demands ps (cs.put (.field field) v)).get? (ps.resolve field) = some (ps.toStore field v) := by
  induction cs with
  | nil =>
    rw [Entries.put, get?_demands_cons]
    exact if_pos rfl
  | cons c rest ih =>
    obtain ⟨subject, w⟩ := c
    rw [Entries.put]
    by_cases hsubject : subject = .field field
    · subst hsubject
      rw [if_pos rfl, get?_demands_cons, get?_demands_of_not_mem (hlast [] w rest rfl), Option.none_or]
      exact if_pos rfl
    · rw [if_neg hsubject, get?_demands_cons, ih, Option.some_or]
      rintro before w' after rfl
      exact hlast ((subject, w) :: before) w' after rfl

end Query

end DocQuery
