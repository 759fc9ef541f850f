import DocQuery.Proofs.Scope.SingleRecord

/-!
# Sizes before and after a load

The size of a scope that is not loaded is a number of the store, which counts every document that matches and
minds neither offset nor limit; the size of a loaded scope is the number of its records, which do. The two differ
as soon as the slice drops a document. Whether there is any record is answered wrongly from a count just when the
offset leaves nothing of documents that there are: any limit lets at least one through.
-/

namespace DocQuery

namespace Criteria

/-- The number of documents that the offset and the limit leave. -/
def pageSize (c : Criteria) (n : Nat) : Nat :=
  match c.limit with
  | none | some 0 => n - min n (c.offset.getD 0)
  | some limit => min limit (n - min n (c.offset.getD 0))

/-- There are documents, and the offset leaves none of them. -/
def SkipsAll (c : Criteria) (n : Nat) : Prop := 0 < n ∧ n ≤ c.offset.getD 0

variable (c : Criteria)

theorem length_page (ds : List Document) : (c.page ds).length = c.pageSize ds.length := by
  have hdrop : (ds.drop (c.offset.getD 0)).length = ds.length - min ds.length (c.offset.getD 0) := by
    rw [List.length_drop]
    omega
  rw [page, pageSize]
  cases c.limit with
  | none => exact hdrop
  | some limit =>
    cases limit with
    | zero => exact hdrop
    | succ n => exact List.length_take.trans (congrArg (min (n + 1)) hdrop)

theorem page_sublist (ds : List Document) : (c.page ds).Sublist ds := by
  rw [page]
  split
  · exact List.drop_sublist _ _
  · exact List.drop_sublist _ _
  · exact (List.take_sublist _ _).trans (List.drop_sublist _ _)

/-- The slice drops no document just if it drops none of any list of the length. -/
theorem pageSize_eq_self_iff (n : Nat) : c.pageSize n = n ↔ ∀ ds : List Document, ds.length = n → c.page ds = ds := by
  constructor
  · rintro hsize ds rfl
    apply (c.page_sublist ds).eq_of_length
    rw [length_page, hsize]
  · intro hpage
    have hlength : (List.replicate n ([] : Document)).length = n := List.length_replicate
    have hsize := c.length_page (List.replicate n [])
    rw [hpage _ hlength, hlength] at hsize
    exact hsize.symm

theorem pageSize_eq_zero_iff (n : Nat) : c.pageSize n = 0 ↔ n ≤ c.offset.getD 0 := by
  rw [pageSize]
  split
  · omega
  · omega
  · next limit hlimit _ =>
    have hpositive : limit ≠ 0 := by
      rintro rfl
      contradiction
    omega

/-- Counting tells whether the slice leaves a document unless the offset skips all of them. -/
theorem zero_iff_pageSize_zero (n : Nat) : (n = 0 ↔ c.pageSize n = 0) ↔ ¬ c.SkipsAll n := by
  rw [pageSize_eq_zero_iff, SkipsAll]
  omega

end Criteria

namespace Retrieval

/-- What is given of the documents found has the length of their page, although the counts were capped. -/
theorem length_apply_retrieval (ps : Properties) (c : Criteria) (keys : List SortKey) {ds : List Document}
    (hlength : ds.length < 2 ^ 63) : ((Query.retrieval ps c keys).apply ds).length = c.pageSize ds.length := by
  have hsorted : (sorted (Query.retrieval ps c keys).sort ds).length = ds.length :=
    (sorted_perm _ ds).length_eq
  rw [apply, List.length_map]
  show (slice (Query.cappedCount (c.offset.getD 0)) (Query.cappedCount (c.limit.getD 0)) _).length = _
  rw [slice_cappedCount _ _ (by rw [hsorted]; exact hlength), ← Criteria.page_eq_slice, Criteria.length_page, hsorted]

theorem mem_apply {r : Retrieval} {ds : List Document} {d : Document} (hd : d ∈ r.apply ds) :
    ∃ found ∈ ds, d = project r.fields found := by
  obtain ⟨found, hfound, rfl⟩ := List.mem_map.mp hd
  refine ⟨found, ?_, rfl⟩
  rw [slice] at hfound
  split at hfound
  · exact (sorted_perm _ ds).mem_iff.mp (List.mem_of_mem_drop hfound)
  · exact (sorted_perm _ ds).mem_iff.mp (List.mem_of_mem_drop (List.mem_of_mem_take hfound))

end Retrieval

namespace Scope

variable {M : ModelKind} {s t : Scope M} {w : World M Database.backend} {c : Connection} {q q' : Query}

/-! ### Before the load -/

/-- How a scope that compiles stands to a plain connection that accepts its selector. -/
structure Settled (s : Scope M) (w : World M Database.backend) (c : Connection) (q : Query) : Prop where
  compiles : s.compile = .ok q
  connected : w.store.connections.get? s.currentSource.key = some c
  plain : c.IsPlain
  accepted : Collection.Accepts q.selector c.collection.documents
  short : c.collection.documents.length < 2 ^ 63

/-- Two scopes have the same conditions on the same collection. Their other clauses may differ. -/
structure SameConditions (s t : Scope M) : Prop where
  model : s.model = t.model
  source : s.currentSource = t.currentSource
  conditions : s.conditions = t.conditions

theorem SameConditions.selector (hsame : s.SameConditions t) (hs : s.compile = .ok q)
    (ht : t.compile = .ok q') : q.selector = q'.selector := by
  obtain ⟨selector, keys, hselector, -, rfl⟩ := Query.compile_eq_ok hs
  obtain ⟨selector', keys', hselector', -, rfl⟩ := Query.compile_eq_ok ht
  rw [conditions_criteria, hsame.model, hsame.conditions, ← conditions_criteria, hselector'] at hselector
  cases hselector
  rfl

theorem Settled.of_sameConditions (hsettled : s.Settled w c q) (hsame : s.SameConditions t)
    (hcompile : t.compile = .ok q') : t.Settled w c q' := by
  have hselector := hsame.selector hsettled.compiles hcompile
  exact ⟨hcompile, hsame.source ▸ hsettled.connected, hsettled.plain, hselector ▸ hsettled.accepted, hsettled.short⟩

theorem Settled.reaches (hsettled : s.Settled w c q) (hready : w.IndexesReady s.model) :
    s.Reaches w q c :=
  ⟨hsettled.compiles, hready, hsettled.connected, hsettled.plain.1⟩

theorem Settled.count (hsettled : s.Settled w c q) (hready : w.IndexesReady s.model) :
    (s.count w).1 = .ok (c.collection.documents.filter (·.isMatch q.selector)).length := by
  obtain ⟨selector, keys, -, -, rfl⟩ := Query.compile_eq_ok hsettled.compiles
  rw [count_answer hsettled.compiles hready]
  show Except.mapError _ (w.store.count _ _ _).1 = _
  rw [Database.count_of_connection hsettled.connected, Connection.count_of_reachable hsettled.plain.1,
    Collection.tally_of_accepts (Retrieval.ofOptions_optionsOf _ _ _) hsettled.accepted]
  rfl

theorem isEmpty_of_size {n : Nat} (hsize : (s.size w).1 = .ok n) : (s.isEmpty w).1 = .ok (n == 0) := by
  show (s.size w).1.map (· == 0) = _
  rw [hsize]
  rfl

theorem isNonempty_of_size {n : Nat} (hsize : (s.size w).1 = .ok n) : (s.isNonempty w).1 = .ok (n != 0) := by
  show (s.size w).1.map (· != 0) = _
  rw [hsize]
  rfl

/-! ### The load -/

theorem Settled.fetch (hsettled : s.Settled w c q) (hready : w.IndexesReady s.model) :
    ∃ ds : List Document, (s.fetch w).1 = (ds.mapM s.model.record).mapError .model ∧
      ds.length = s.criteria.pageSize (c.collection.documents.filter (·.isMatch q.selector)).length ∧
      ∀ d ∈ ds, ∃ found ∈ c.collection.documents.filter (·.isMatch q.selector), d = Retrieval.project s.select found := by
  obtain ⟨selector, keys, -, -, rfl⟩ := Query.compile_eq_ok hsettled.compiles
  have hfound : (c.collection.documents.filter (·.isMatch selector)).length < 2 ^ 63 :=
    Nat.lt_of_le_of_lt (List.length_filter_le _ _) hsettled.short
  exact ⟨_, fetch_of_accepts (hsettled.reaches hready) hsettled.plain (Retrieval.ofOptions_optionsOf _ _ _) hsettled.accepted,
    Retrieval.length_apply_retrieval _ _ keys hfound, fun d hd => Retrieval.mem_apply hd⟩

theorem Settled.load (hunloaded : s.records = none) (hsettled : s.Settled w c q)
    (hready : w.IndexesReady s.model)
    (hbuilds : ∀ d ∈ c.collection.documents.filter (·.isMatch q.selector),
      ∃ r, s.model.record (Retrieval.project s.select d) = .ok r) : ∃ rs, (s.load w).1 = .ok rs := by
  obtain ⟨ds, hfetch, -, hmembers⟩ := hsettled.fetch hready
  obtain ⟨rs, hrs⟩ : ∃ rs, ds.mapM s.model.record = .ok rs := by
    apply mapM_ok_of_forall
    intro d hd
    obtain ⟨found, hfound, rfl⟩ := hmembers d hd
    exact hbuilds found hfound
  exact ⟨rs, by rw [load_answer w hunloaded, hfetch, hrs]; rfl⟩

theorem Settled.length_of_load (hunloaded : s.records = none) (hsettled : s.Settled w c q)
    (hready : w.IndexesReady s.model) {rs : List M.Record} (hload : (s.load w).1 = .ok rs) :
    rs.length = s.criteria.pageSize (c.collection.documents.filter (·.isMatch q.selector)).length := by
  obtain ⟨ds, hfetch, hlength, -⟩ := hsettled.fetch hready
  rw [load_answer w hunloaded, hfetch] at hload
  cases hrecords : ds.mapM s.model.record with
  | error e =>
    rw [hrecords] at hload
    cases hload
  | ok rs' =>
    rw [hrecords] at hload
    cases hload
    rw [mapM_length_of_ok hrecords, hlength]

/-! ### Before against after -/

/-- How the answers of a scope about its size before a load and after it compare, if `n` documents match and the
load gives the records. Counting after the load needs the indexes once more. -/
structure SizesCompare (s : Scope M) (w : World M Database.backend) (n : Nat) (rs : List M.Record) : Prop where
  length : rs.length = s.criteria.pageSize n
  size_after : ((s.load w).2.1.size (s.load w).2.2).1 = .ok rs.length
  count_after : (s.load w).2.2.IndexesReady s.model → ((s.load w).2.1.count (s.load w).2.2).1 = .ok n
  size : (s.size w).1 = ((s.load w).2.1.size (s.load w).2.2).1 ↔
    ∀ ds : List Document, ds.length = n → s.criteria.page ds = ds
  isEmpty : (s.isEmpty w).1 = ((s.load w).2.1.isEmpty (s.load w).2.2).1 ↔ ¬ s.criteria.SkipsAll n
  isNonempty : (s.isNonempty w).1 = ((s.load w).2.1.isNonempty (s.load w).2.2).1 ↔ ¬ s.criteria.SkipsAll n
  isEmpty_hasDocument : (s.isEmpty w).1 = (s.hasDocument w).1.map (!·) ↔ ¬ s.criteria.SkipsAll n
  isNonempty_hasDocument : (s.isNonempty w).1 = (s.hasDocument w).1 ↔ ¬ s.criteria.SkipsAll n

theorem count_after_load {rs : List M.Record} (hunloaded : s.records = none) (hload : (s.load w).1 = .ok rs)
    (hbefore : w.IndexesReady s.model) (hafter : (s.load w).2.2.IndexesReady s.model) :
    ((s.load w).2.1.count (s.load w).2.2).1 = (s.count w).1 := by
  have hleft : (s.load w).2.1 = { s with records := some rs } := by
    rw [load_of_fetched hunloaded (by rw [← load_answer w hunloaded]; exact hload)]
  rw [world_load w hunloaded] at hafter
  rw [hleft, world_load w hunloaded]
  exact (count_of_alike (alike_executed .find s w) (hbefore.trans hafter.symm)).symm

theorem sizesCompare_of_length {n : Nat} {rs : List M.Record} (hunloaded : s.records = none)
    (hready : w.IndexesReady s.model) (hcount : (s.count w).1 = .ok n) (hload : (s.load w).1 = .ok rs)
    (hlength : rs.length = s.criteria.pageSize n) : s.SizesCompare w n rs := by
  have hbefore : (s.size w).1 = .ok n := by rw [size_of_unloaded w hunloaded, hcount]
  have hafter : ((s.load w).2.1.size (s.load w).2.2).1 = .ok rs.length := by
    rw [Scope.size, records_of_load hload]
  have hany : (s.hasDocument w).1 = .ok (rs.length != 0) := by
    rw [hasDocument_of_load hload]
    cases rs <;> rfl
  -- Each answer is one number compared with zero, so agreeing is being zero together.
  have hzero : ((n == 0) = (rs.length == 0)) ↔ ¬ s.criteria.SkipsAll n := by
    rw [← s.criteria.zero_iff_pageSize_zero n, ← hlength, Bool.eq_iff_iff, beq_iff_eq, beq_iff_eq]
  have hnonzero : ((n != 0) = (rs.length != 0)) ↔ ¬ s.criteria.SkipsAll n := by
    rw [← hzero, bne, bne, Bool.not_inj_iff]
  constructor
  · exact hlength
  · exact hafter
  · intro hafter
    rw [count_after_load hunloaded hload hready hafter, hcount]
  · rw [hbefore, hafter, Except.ok.injEq, ← Criteria.pageSize_eq_self_iff, hlength, eq_comm]
  · rw [isEmpty_of_size hbefore, isEmpty_of_size hafter, Except.ok.injEq, hzero]
  · rw [isNonempty_of_size hbefore, isNonempty_of_size hafter, Except.ok.injEq, hnonzero]
  · rw [isEmpty_of_size hbefore, hany, Except.map, bne, Bool.not_not, Except.ok.injEq, hzero]
  · rw [isNonempty_of_size hbefore, hany, Except.ok.injEq, hnonzero]

/-- A scope that is not loaded answers about its size from the number of all documents that match, and a loaded
one from what the offset and the limit leave of them. So the sizes agree just if the slice drops nothing, and
whether there is any record is answered alike, and as by looking for a document, unless the offset skips all
documents that there are. The number is the same for every scope with the same conditions. A load is sure to give
records if the documents can be sorted consistently and become records. Indexes that are needed and cannot be set up
make all of these fail. -/
theorem sizes_compare (hsettled : s.Settled w c q) :
    (w.IndexesReady s.model →
      (∀ (t : Scope M) (q' : Query), s.SameConditions t → t.compile = .ok q' →
        (t.count w).1 = .ok (c.collection.documents.filter (·.isMatch q.selector)).length ∧
        (t.records = none → (t.size w).1 = .ok (c.collection.documents.filter (·.isMatch q.selector)).length)) ∧
      (s.records = none →
        (s.criteria.SortsConsistently s.model.properties (c.collection.documents.filter (·.isMatch q.selector)) →
          (∀ d ∈ c.collection.documents.filter (·.isMatch q.selector),
            ∃ r, s.model.record (Retrieval.project s.select d) = .ok r) → ∃ rs, (s.load w).1 = .ok rs) ∧
        ∀ rs, (s.load w).1 = .ok rs →
          s.SizesCompare w (c.collection.documents.filter (·.isMatch q.selector)).length rs)) ∧
    ∀ e, w.indexFailure? s.model = some e →
      (s.count w).1 = .error (.model e) ∧
      (s.records = none → (s.size w).1 = .error (.model e) ∧ (s.load w).1 = .error (.model e)) := by
  constructor
  · intro hready
    refine ⟨?_, fun hunloaded => ⟨fun _ => hsettled.load hunloaded hready, ?_⟩⟩
    · intro t q' hsame hcompile
      have hcount := (hsettled.of_sameConditions hsame hcompile).count (hsame.model ▸ hready)
      rw [← hsame.selector hsettled.compiles hcompile] at hcount
      exact ⟨hcount, fun hunloaded => by rw [size_of_unloaded w hunloaded, hcount]⟩
    · intro rs hload
      exact sizesCompare_of_length hunloaded hready (hsettled.count hready) hload
        (hsettled.length_of_load hunloaded hready hload)
  · intro e hfailure
    have hobstacle := obstacle?_of_failure hsettled.compiles hfailure
    exact ⟨count_of_obstacle hobstacle, fun hunloaded =>
      ⟨size_of_obstacle hunloaded hobstacle, load_of_obstacle hunloaded hobstacle⟩⟩

/-! ### Three people, all of them skipped -/

def beyond (indexes : IndexPolicy) : Scope Model.kind := (all (person indexes).schema).skipping 3

def beyondQuery : Query := ⟨[], [("skip", Query.countValue 3)]⟩

theorem settled_beyond (indexes : IndexPolicy) : (beyond indexes).Settled peopleWorld people beyondQuery :=
  ⟨rfl, rfl, ⟨rfl, rfl⟩, fun _ _ => ⟨true, rfl⟩, people_length⟩

theorem beyond_sizes :
    ((beyond .once).count peopleWorld).1 = .ok 3 ∧ ((all (person .once).schema).size peopleWorld).1 = .ok 3 ∧
    ((beyond .once).load peopleWorld).1 = .ok [] ∧
    ((beyond .once).isEmpty peopleWorld).1 ≠
      (((beyond .once).load peopleWorld).2.1.isEmpty ((beyond .once).load peopleWorld).2.2).1 := by
  have hload : ((beyond .once).load peopleWorld).1 = .ok [] := rfl
  obtain ⟨hcounts, hloads⟩ := (sizes_compare (settled_beyond .once)).1 rfl
  have hcount := (hcounts (beyond .once) beyondQuery ⟨rfl, rfl, rfl⟩ rfl).1
  have hsize := (hcounts (all (person .once).schema) ⟨[], []⟩ ⟨rfl, rfl, rfl⟩ rfl).2 rfl
  have hcompare := (hloads rfl).2
  have hskips : (beyond .once).criteria.SkipsAll 3 := ⟨by decide, by decide⟩
  exact ⟨hcount, hsize, hload, fun hsame => (hcompare [] hload).isEmpty.mp hsame hskips⟩

/-- Without a word about indexes counting would not give the number of documents that match. -/
theorem count_ne_matches_of_failing_indexes :
    ¬ ∀ (s : Scope Model.kind) (w : World Model.kind Database.backend) (c : Connection) (q : Query), s.records = none →
      s.Settled w c q →
      (∀ d ∈ c.collection.documents.filter (·.isMatch q.selector),
        ∃ r, s.model.record (Retrieval.project s.select d) = .ok r) →
      (s.count w).1 = .ok (c.collection.documents.filter (·.isMatch q.selector)).length := by
  intro hclaim
  have hcount := hclaim (beyond .failing) peopleWorld people beyondQuery rfl (settled_beyond .failing)
    fun d _ => ⟨_, rfl⟩
  have hfailed : ((beyond .failing).count peopleWorld).1 = .error (.model .indexBuildFailed) := rfl
  rw [hfailed] at hcount
  cases hcount

end Scope

end DocQuery
