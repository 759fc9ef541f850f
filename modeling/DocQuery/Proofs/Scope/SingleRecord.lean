import DocQuery.Proofs.Scope.Evaluation
import DocQuery.Proofs.Scope.Failure
import DocQuery.Proofs.Scope.Slices

/-!
# The first record

A scope that is not loaded asks for its first record, or for any document, with a limit of one in the place of
its own. The documents that this query gives are the first of those that its own query gives: matching and
sorting come before the slice, the offset is the same, and any limit lets at least one document through, zero
being none. So the first record is the head of the list that a load would give, and a failure to get it is one
that a load runs into as well, while later documents may make the load fail alone.
-/

namespace DocQuery

namespace Retrieval

theorem slice_one (skip limit : Nat) (ds : List Document) : slice skip 1 ds = (slice skip limit ds).take 1 := by
  rw [slice, slice, if_neg Nat.one_ne_zero]
  by_cases hlimit : limit = 0
  · rw [if_pos hlimit]
  · rw [if_neg hlimit, List.take_take, Nat.min_eq_left (Nat.one_le_iff_ne_zero.mpr hlimit)]

/-- With a limit of one the first document is given of those that any other limit gives. -/
theorem apply_limit_one (ps : Properties) (c : Criteria) (keys : List SortKey) (ds : List Document) :
    (Query.retrieval ps { c with limit := some 1 } keys).apply ds = ((Query.retrieval ps c keys).apply ds).take 1 := by
  rw [apply, apply, ← List.map_take]
  exact congrArg (List.map _) (slice_one _ _ _)

end Retrieval

theorem Connection.cursorOver_take (c : Connection) (n : Nat) (ds : List Document) :
    c.cursorOver (ds.take n) = (c.cursorOver ds).take n := by
  apply List.ext_getElem?
  intro i
  rw [List.getElem?_take, getElem?_cursorOver, getElem?_cursorOver, List.getElem?_take]
  by_cases hi : i < n
  · rw [if_pos hi, if_pos hi]
  · rw [if_neg hi, if_neg hi, Option.map_none]

namespace Scope

variable {M : ModelKind} {s : Scope M} {w : World M Database.backend}

/-! ### A limit of one -/

/-- The copy with the limit one gets the first item of what the scope gets. -/
theorem cursor_limitedTo_one (s : Scope M) (w : World M Database.backend) :
    ((s.limitedTo 1).cursor w).1 = (s.cursor w).1.map (List.take 1) := by
  have hlimited : s.limitedTo 1 = s.sliced s.offset (some 1) := rfl
  rw [hlimited]
  refine cursor_sliced fun c selector keys ds _ _ => ?_
  rw [← Connection.cursorOver_take, ← Retrieval.apply_limit_one]
  rfl

/-- The first record of a scope that is not loaded is built from the first item that it gets. -/
theorem first_answer (w : World M Database.backend) (hunloaded : s.records = none) :
    (s.first w).1 = ((s.cursor w).1.bind fun items => (items.take 1).mapM s.recordOf).map List.head? := by
  rw [first, hunloaded]
  show ((((s.limitedTo 1).cursor w).1.bind fun items => items.mapM s.recordOf).map List.head?) = _
  rw [cursor_limitedTo_one]
  cases (s.cursor w).1 <;> rfl

/-- Whether there is a document is up to the first item that a scope gets, and to nothing that is made of it. -/
theorem hasDocument_answer (w : World M Database.backend) (hunloaded : s.records = none) :
    (s.hasDocument w).1 = (s.cursor w).1.bind fun
      | [] => .ok false
      | .ok _ :: _ => .ok true
      | .error e :: _ => .error (.storage e) := by
  rw [hasDocument, hunloaded]
  show (((s.limitedTo 1).cursor w).1.bind _) = _
  rw [cursor_limitedTo_one]
  cases (s.cursor w).1 with
  | error e => rfl
  | ok items =>
    cases items with
    | nil => rfl
    | cons item rest => cases item <;> rfl

/-! ### Against a load -/

theorem fetch_eq_ok {rs : List M.Record} (hfetch : (s.fetch w).1 = .ok rs) :
    ∃ items, (s.cursor w).1 = .ok items ∧ items.mapM s.recordOf = .ok rs := bind_eq_ok hfetch

theorem first_of_load {rs : List M.Record} (hload : (s.load w).1 = .ok rs) : (s.first w).1 = .ok rs.head? := by
  cases hrecords : s.records with
  | some cached =>
    rw [load_of_records w hrecords] at hload
    cases hload
    rw [first, hrecords]
  | none =>
    rw [load_answer w hrecords] at hload
    obtain ⟨items, hcursor, hitems⟩ := fetch_eq_ok hload
    rw [first_answer w hrecords, hcursor]
    cases items with
    | nil =>
      cases hitems
      rfl
    | cons item rest =>
      obtain ⟨r, rs', hr, -, rfl⟩ := mapM_cons_eq_ok hitems
      show (([item].mapM s.recordOf).map List.head?) = _
      rw [List.mapM_cons, hr]
      rfl

theorem hasDocument_of_load {rs : List M.Record} (hload : (s.load w).1 = .ok rs) :
    (s.hasDocument w).1 = .ok (!rs.isEmpty) := by
  cases hrecords : s.records with
  | some cached =>
    rw [load_of_records w hrecords] at hload
    cases hload
    rw [hasDocument, hrecords]
  | none =>
    rw [load_answer w hrecords] at hload
    obtain ⟨items, hcursor, hitems⟩ := fetch_eq_ok hload
    rw [hasDocument_answer w hrecords, hcursor]
    cases items with
    | nil =>
      cases hitems
      rfl
    | cons item rest =>
      obtain ⟨r, rs', hr, -, rfl⟩ := mapM_cons_eq_ok hitems
      cases item with
      | ok d => rfl
      | error e => cases hr

theorem load_of_first_error {e : QueryError M Database.backend} (hfirst : (s.first w).1 = .error e) :
    (s.load w).1 = .error e := by
  cases hrecords : s.records with
  | some cached =>
    rw [first, hrecords] at hfirst
    cases hfirst
  | none =>
    rw [first_answer w hrecords] at hfirst
    rw [load_answer w hrecords]
    show ((s.cursor w).1.bind fun items => items.mapM s.recordOf) = _
    cases hcursor : (s.cursor w).1 with
    | error reason =>
      rw [hcursor] at hfirst
      cases hfirst
      rfl
    | ok items =>
      rw [hcursor] at hfirst
      cases items with
      | nil => cases hfirst
      | cons item rest =>
        change (([item].mapM s.recordOf).map List.head?) = _ at hfirst
        show (item :: rest).mapM s.recordOf = _
        rw [map_eq_error_iff, mapM_cons_eq_error_iff] at hfirst
        rw [mapM_cons_eq_error_iff]
        refine .inl (hfirst.resolve_right ?_)
        rintro ⟨-, hnil⟩
        cases hnil

/-! ### Before and after a load -/

/-- Another run on the model of a scope leaves the answer of a load as it is, if it leaves the indexes so that they can
be had as before. -/
theorem load_executed {t : Scope M} (s : Scope M) (w : World M Database.backend) (kind : RequestKind)
    (hready : (t.executed kind w).indexFailure? s.model = w.indexFailure? s.model) :
    (s.load (t.executed kind w)).1 = (s.load w).1 := by
  cases hrecords : s.records with
  | some cached => rw [load_of_records _ hrecords, load_of_records _ hrecords]
  | none =>
    rw [load_answer _ hrecords, load_answer _ hrecords, fetch_answer, fetch_answer,
      ← cursor_of_alike (alike_executed kind t w) hready.symm]

/-! ### Whatever records are made of documents -/

/-- The scope with a model that makes other records of documents. -/
def buildingBy (s : Scope M) (record : Document → Except M.Failure M.Record) : Scope M :=
  { s with model := { s.model with record := record } }

/-- Whether there is a document is answered alike whatever the model makes of documents. -/
theorem hasDocument_buildingBy {B : Backend} (s : Scope M) (w : World M B)
    (record : Document → Except M.Failure M.Record) : (s.buildingBy record).hasDocument w = s.hasDocument w := rfl

/-- If a load would give records, the first record is their head and there is a document just if they are not
empty, asked for before the load with a limit of one, which leaves the answer of the load as it is unless it makes the
indexes fail, or after it. A failure to get the first record is that of the load. Whether there is a document does not
depend on what records are made of documents. -/
theorem single_record_agrees :
    (∀ (s : Scope M) (w : World M Database.backend) (rs : List M.Record), (s.load w).1 = .ok rs →
      (s.first w).1 = .ok rs.head? ∧ (s.hasDocument w).1 = .ok (!rs.isEmpty) ∧
      (s.load w).2.1.first (s.load w).2.2 = (.ok rs.head?, (s.load w).2.2) ∧
      (s.load w).2.1.hasDocument (s.load w).2.2 = (.ok (!rs.isEmpty), (s.load w).2.2)) ∧
    (∀ (s : Scope M) (w : World M Database.backend) (e : QueryError M Database.backend),
      (s.first w).1 = .error e → (s.load w).1 = .error e) ∧
    (∀ (s : Scope M) (w : World M Database.backend), s.records = none →
      (s.first w).2 = (s.limitedTo 1).executed .find w ∧ (s.hasDocument w).2 = (s.limitedTo 1).executed .find w ∧
      ((s.first w).2.indexFailure? s.model = w.indexFailure? s.model →
        (s.load (s.first w).2).1 = (s.load w).1 ∧ (s.load (s.hasDocument w).2).1 = (s.load w).1)) ∧
    ∀ (s : Scope M) (w : World M Database.backend) (record : Document → Except M.Failure M.Record),
      (s.buildingBy record).hasDocument w = s.hasDocument w := by
  refine ⟨?_, fun s w e => load_of_first_error, ?_, fun s w => hasDocument_buildingBy s w⟩
  · intro s w rs hload
    have hrecords := records_of_load hload
    exact ⟨first_of_load hload, hasDocument_of_load hload, by rw [first, hrecords], by rw [hasDocument, hrecords]⟩
  · intro s w hunloaded
    refine ⟨world_first w hunloaded, world_hasDocument w hunloaded, fun hready => ?_⟩
    rw [world_first w hunloaded] at hready
    rw [world_first w hunloaded, world_hasDocument w hunloaded]
    exact ⟨load_executed s w .find hready, load_executed s w .find hready⟩

/-! ### Three people, all but the first -/

/-- The people but for the first, with a limit that is none. -/
def others : Scope Model.kind := ((all (person .once).schema).skipping 1).limitedTo 0

/-- These people, of whom the city is required. -/
def citizens : Scope Model.kind := others.buildingBy { person .once with required := ["city"] }.record

theorem load_others : (others.load peopleWorld).1 =
    .ok [[("age", .integer 85), ("id", .integer 2)], [("age", .integer 36), ("id", .integer 3)]] := by rfl

theorem first_citizens : (citizens.first peopleWorld).1 = .error (.model (.missingField "city")) := by rfl

theorem others_agree :
    (others.first peopleWorld).1 = .ok (some [("age", .integer 85), ("id", .integer 2)]) ∧
    (others.hasDocument peopleWorld).1 = .ok true ∧
    (citizens.load peopleWorld).1 = .error (.model (.missingField "city")) ∧
    (citizens.hasDocument peopleWorld).1 = .ok true := by
  obtain ⟨hagrees, hfails, -, hbuilding⟩ := single_record_agrees (M := Model.kind)
  obtain ⟨hhead, hany, -, -⟩ := hagrees others peopleWorld _ load_others
  exact ⟨hhead, hany, hfails _ _ _ first_citizens, (congrArg Prod.fst (hbuilding others peopleWorld _)).trans hany⟩

end Scope

end DocQuery
