import DocQuery.Proofs.Collection.Search
import DocQuery.Proofs.Collection.StableSort
import DocQuery.Proofs.Query.Options
import DocQuery.Proofs.Scope.Requests

/-!
# What loading a scope answers

The answer of a scope can be read off its clauses and the documents of its collection, with no word about
requests: keep the documents that match, insert them in order, leave out those before the offset and after
the limit, choose the fields and build the records. Loading gives this answer whenever the collection
answers at all. Between the two lie the options document, which one side writes and the other decodes, the
counts that do not fit it, and the sorting of the collection. The answer of a sort can only be told where the fields
to sort by order the documents consistently.
-/

namespace DocQuery

namespace Criteria

/-- The documents left by the offset and the limit, of which zero is no limit. -/
def page (c : Criteria) (ds : List Document) : List Document :=
  match c.limit with
  | none | some 0 => ds.drop (c.offset.getD 0)
  | some n => (ds.drop (c.offset.getD 0)).take n

/-- The documents that match a selector, each inserted before those that it ties with. -/
def ordered (keys : List SortKey) (selector : Document) (stored : List Document) : List Document :=
  (stored.filter (·.isMatch selector)).insertionSort fun d e => (Retrieval.order keys d e).isLE = true

/-- The answer that the clauses ask for, given the stored documents. -/
def evaluate {M : ModelKind} (c : Criteria) (m : Schema M) (stored : List Document) :
    Except (QueryError M Database.backend) (List M.Record) := do
  let selector ← (Query.selectorOf m.properties (c.conditions.getD [])).mapError .compile
  let terms ← (SortTerm.allSortKeys c.order).mapError .compile
  let found := ordered (terms.map (Query.resolvedKey m.properties)) selector stored
  (((c.page found).map (Retrieval.project c.select)).mapM m.record).mapError .model

end Criteria

/-- The connection passes every request on to its collection and every document back. -/
def Connection.IsPlain (c : Connection) : Prop := c.reachable = true ∧ c.breaksAt = none

theorem Connection.cursorOver_of_plain {c : Connection} (hplain : c.IsPlain) (ds : List Document) :
    c.cursorOver ds = ds.map .ok := by
  apply List.ext_getElem
  · rw [cursorOver, List.length_mapIdx, List.length_map]
  · intro i hi hi'
    simp only [cursorOver, List.getElem_mapIdx, List.getElem_map, hplain.2, reduceCtorEq, if_false]

namespace Criteria

theorem page_eq_slice (c : Criteria) (ds : List Document) :
    c.page ds = Retrieval.slice (c.offset.getD 0) (c.limit.getD 0) ds := by
  rw [page]
  cases c.limit with
  | none => rfl
  | some limit =>
    cases limit with
    | zero => rfl
    | succ n => rfl

/-- The fields that the order names can be sorted by, as far as the stored documents have them. -/
def SortsConsistently (c : Criteria) (ps : Properties) (stored : List Document) : Prop :=
  ∀ terms, SortTerm.allSortKeys c.order = .ok terms →
    ∀ term ∈ terms, Retrieval.Sortable (ps.resolve term.field) stored

theorem SortsConsistently.orders {c : Criteria} {ps : Properties} {stored : List Document} {terms : List SortKey}
    (hconsistent : c.SortsConsistently ps stored) (hterms : SortTerm.allSortKeys c.order = .ok terms) :
    Retrieval.Orders (terms.map (Query.resolvedKey ps)) stored := by
  refine Retrieval.orders_of_sortable fun key hkey => ?_
  obtain ⟨term, hterm, rfl⟩ := List.mem_map.mp hkey
  exact hconsistent terms hterms term hterm

theorem evaluate_of_compiled {M : ModelKind} {c : Criteria} {m : Schema M} {selector : Document} {terms : List SortKey}
    (stored : List Document) (hselector : Query.selectorOf m.properties (c.conditions.getD []) = .ok selector)
    (hterms : SortTerm.allSortKeys c.order = .ok terms) :
    c.evaluate m stored =
      (((c.page (ordered (terms.map (Query.resolvedKey m.properties)) selector stored)).map
        (Retrieval.project c.select)).mapM m.record).mapError .model := by
  rw [evaluate, hselector, hterms]
  rfl

/-- What a collection makes of the clauses is what they ask for, although it was told capped counts. -/
theorem apply_retrieval {c : Criteria} {ps : Properties} {selector : Document} {terms : List SortKey}
    {stored : List Document} (hterms : SortTerm.allSortKeys c.order = .ok terms)
    (hconsistent : c.SortsConsistently ps stored) (hlength : stored.length < 2 ^ 63) :
    (Query.retrieval ps c terms).apply (stored.filter (·.isMatch selector)) =
      (c.page (ordered (terms.map (Query.resolvedKey ps)) selector stored)).map (Retrieval.project c.select) := by
  have horders := (hconsistent.orders hterms).filter (·.isMatch selector)
  have hfound : (ordered (terms.map (Query.resolvedKey ps)) selector stored).length < 2 ^ 63 := by
    rw [ordered, List.length_insertionSort]
    exact Nat.lt_of_le_of_lt (List.length_filter_le _ _) hlength
  rw [Retrieval.apply, Query.retrieval, Retrieval.sorted_eq_insertionSort horders]
  rw [page_eq_slice, ← Retrieval.slice_cappedCount _ _ hfound, ordered]

end Criteria

namespace Scope

variable {M : ModelKind}

theorem mapM_recordOf {B : Backend} (s : Scope M) (ds : List Document) :
    (ds.map Except.ok).mapM (s.recordOf (B := B)) = (ds.mapM s.model.record).mapError .model := by
  induction ds with
  | nil => rfl
  | cons d rest ih =>
    rw [List.map_cons, List.mapM_cons, List.mapM_cons, ih]
    show (((s.model.record d).mapError QueryError.model).bind fun r => _) = _
    cases s.model.record d with
    | error e => rfl
    | ok r => cases rest.mapM s.model.record <;> rfl

/-- What a scope gets over a plain connection: the records of the documents that its decoded options leave of
those that match. -/
theorem fetch_of_accepts {s : Scope M} {w : World M Database.backend} {c : Connection} {q : Query} {r : Retrieval}
    (hreaches : s.Reaches w q c) (hplain : c.IsPlain) (hoptions : Retrieval.ofOptions q.options = .ok r)
    (haccepts : Collection.Accepts q.selector c.collection.documents) :
    (s.fetch w).1 =
      ((r.apply (c.collection.documents.filter (·.isMatch q.selector))).mapM s.model.record).mapError .model := by
  rw [fetch_of_reaches hreaches, Collection.search_of_accepts hoptions haccepts]
  show (c.cursorOver _).mapM (s.recordOf (B := Database.backend)) = _
  rw [Connection.cursorOver_of_plain hplain, mapM_recordOf]

theorem fetch_eq_evaluate {s : Scope M} {w : World M Database.backend} {c : Connection} {q : Query}
    (hreaches : s.Reaches w q c) (hplain : c.IsPlain) (haccepts : Collection.Accepts q.selector c.collection.documents)
    (hconsistent : s.criteria.SortsConsistently s.model.properties c.collection.documents)
    (hlength : c.collection.documents.length < 2 ^ 63) :
    (s.fetch w).1 = s.criteria.evaluate s.model c.collection.documents := by
  obtain ⟨selector, terms, hselector, hterms, rfl⟩ := Query.compile_eq_ok hreaches.compiles
  rw [fetch_of_accepts hreaches hplain (Retrieval.ofOptions_optionsOf _ _ _) haccepts,
    Criteria.apply_retrieval hterms hconsistent hlength, Criteria.evaluate_of_compiled _ hselector hterms]

/-- Loading a scope answers what its clauses ask for, read off the stored documents, whenever its collection
accepts the selector; only indexes that are needed and cannot be set up keep it from asking. The options that
it sends are always understood, and capping the counts in them makes no difference. -/
theorem load_eq_evaluate :
    (∀ (s : Scope M) (w : World M Database.backend) (c : Connection) (q : Query), s.records = none →
      w.store.connections.get? s.currentSource.key = some c → c.IsPlain → s.compile = .ok q →
      Collection.Accepts q.selector c.collection.documents →
      s.criteria.SortsConsistently s.model.properties c.collection.documents →
      c.collection.documents.length < 2 ^ 63 →
      (s.load w).1 = match w.indexFailure? s.model with
        | none => s.criteria.evaluate s.model c.collection.documents
        | some e => .error (.model e)) ∧
    (∀ (ps : Properties) (c : Criteria) (q : Query), Query.compile ps c = .ok q →
      ∃ terms, SortTerm.allSortKeys c.order = .ok terms ∧
        Retrieval.ofOptions q.options = .ok (Query.retrieval ps c terms)) ∧
    (∀ (skip limit : Nat) (ds : List Document), ds.length < 2 ^ 63 →
      Retrieval.slice (Query.cappedCount skip) (Query.cappedCount limit) ds = Retrieval.slice skip limit ds) := by
  refine ⟨?_, ?_, fun skip limit _ hlength => Retrieval.slice_cappedCount skip limit hlength⟩
  · intro s w c q hunloaded hconnection hplain hcompile haccepts hconsistent hlength
    cases hfailure : w.indexFailure? s.model with
    | none =>
      have hreaches : s.Reaches w q c := ⟨hcompile, hfailure, hconnection, hplain.1⟩
      exact (load_answer w hunloaded).trans (fetch_eq_evaluate hreaches hplain haccepts hconsistent hlength)
    | some e => exact load_of_obstacle hunloaded (obstacle?_of_failure hcompile hfailure)
  · intro ps c q hcompile
    obtain ⟨selector, terms, _, hterms, rfl⟩ := Query.compile_eq_ok hcompile
    exact ⟨terms, hterms, Retrieval.ofOptions_optionsOf ps c terms⟩

/-! ### Three people -/

/-- A model whose property `age` is stored as `years`. -/
def person (indexes : IndexPolicy) : Model :=
  ⟨"Person", "Person", .ofList [⟨"age", .integer, "years"⟩], ⟨"people", "people"⟩, [], indexes⟩

theorem setsFlag_once : (person .once).schema.SetsFlag := by
  rintro ⟨initialized, calls⟩
  cases initialized <;> rfl

/-- A connection to three people, two of them of one age. -/
def people : Connection where
  collection := ⟨"people", [[("_id", .int64 1), ("years", .int64 36)], [("_id", .int64 2), ("years", .int64 85)],
    [("_id", .int64 3), ("years", .int64 36)]], 0, 0⟩
  reachable := true
  breaksAt := none
  log := []

def peopleDatabase : Database := ⟨[("people", people)], .issued, 0⟩

/-- A world of these people to which no call was made yet. -/
def peopleWorld : World Model.kind Database.backend := .untouched peopleDatabase

/-- The people older than thirty, the oldest left out, with a limit that does not fit the options. -/
def youngerAdults (indexes : IndexPolicy) : Scope Model.kind :=
  ((((all (person indexes).schema).having [(.operator ⟨"age", .known .above⟩, .string "30")]).orderBy
    [.expression "age DESC"]).skipping 1).limitedTo (2 ^ 64 - 1)

def youngerAdultsQuery : Query where
  selector := [("years", .document [("$gt", .int64 30)])]
  options := [("skip", Query.countValue 1), ("limit", Query.countValue (2 ^ 64 - 1)),
    ("sort", .array [.array [.string "years", .string "descending"]])]

theorem people_accept_youngerAdults :
    Collection.Accepts youngerAdultsQuery.selector people.collection.documents := by
  intro d hd
  simp only [people, List.mem_cons, List.not_mem_nil, or_false] at hd
  rcases hd with rfl | rfl | rfl
  · exact ⟨true, rfl⟩
  · exact ⟨true, rfl⟩
  · exact ⟨true, rfl⟩

theorem youngerAdults_sortsConsistently (indexes : IndexPolicy) :
    (youngerAdults indexes).criteria.SortsConsistently (person indexes).properties people.collection.documents := by
  intro terms hterms term hterm
  have hage : SortTerm.allSortKeys (youngerAdults indexes).criteria.order = .ok [⟨"age", .descending⟩] := rfl
  cases hage.symm.trans hterms
  cases List.mem_singleton.mp hterm
  show Retrieval.Sortable "years" people.collection.documents
  unfold Retrieval.Sortable
  decide +kernel

theorem compile_youngerAdults (indexes : IndexPolicy) : (youngerAdults indexes).compile = .ok youngerAdultsQuery := rfl

theorem people_length : people.collection.documents.length < 2 ^ 63 := by decide +kernel

theorem load_youngerAdults :
    ((youngerAdults .once).load peopleWorld).1 =
      .ok [[("age", .integer 36), ("id", .integer 1)], [("age", .integer 36), ("id", .integer 3)]] :=
  (load_eq_evaluate.1 (youngerAdults .once) peopleWorld people youngerAdultsQuery rfl rfl ⟨rfl, rfl⟩
    (compile_youngerAdults .once) people_accept_youngerAdults (youngerAdults_sortsConsistently .once)
    people_length).trans rfl

/-- Without a word about indexes the answer would not be the one that the clauses ask for. -/
theorem load_ne_evaluate_of_failing_indexes :
    ¬ ∀ (s : Scope Model.kind) (w : World Model.kind Database.backend) (c : Connection) (q : Query), s.records = none →
      w.store.connections.get? s.currentSource.key = some c → c.IsPlain → s.compile = .ok q →
      Collection.Accepts q.selector c.collection.documents →
      s.criteria.SortsConsistently s.model.properties c.collection.documents →
      c.collection.documents.length < 2 ^ 63 →
      (s.load w).1 = s.criteria.evaluate s.model c.collection.documents := by
  intro hclaim
  have hanswer := hclaim (youngerAdults .failing) peopleWorld people youngerAdultsQuery rfl rfl ⟨rfl, rfl⟩
    (compile_youngerAdults .failing) people_accept_youngerAdults (youngerAdults_sortsConsistently .failing) people_length
  have hfailed : ((youngerAdults .failing).load peopleWorld).1 = .error (.model .indexBuildFailed) := rfl
  rw [hfailed] at hanswer
  cases hanswer

end Scope

end DocQuery
