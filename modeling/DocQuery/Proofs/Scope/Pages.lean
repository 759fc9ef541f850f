import DocQuery.Proofs.Scope.Sizes

/-!
# Pages

Reading a scope page by page sends a query of its own for every page, which matches and sorts all documents anew. The
sort is the same every time, ties included, and no page changes what the next one is answered, so the pages are
consecutive stretches of one list. Reading on until a page is empty therefore gives what a load gives: the records from
a page on are those of the page and then those from the next page on, and an empty page leaves nothing behind it. Only
the indexes may come between two pages, if they are set up for every page and this fails at some time.
-/

namespace DocQuery

namespace Retrieval

/-- An offset and a limit give a stretch of what is given without them, although the counts are capped. -/
theorem apply_sliced (ps : Properties) {c : Criteria} (keys : List SortKey) {ds : List Document} (skip : Nat) {limit : Nat}
    (hoffset : c.offset = none) (hunlimited : c.limit = none) (hlimit : 1 ≤ limit) (hlength : ds.length < 2 ^ 63) :
    (Query.retrieval ps { c with offset := some skip, limit := some limit } keys).apply ds =
      (((Query.retrieval ps c keys).apply ds).drop skip).take limit := by
  have hsorted : (sorted (keys.map (Query.resolvedKey ps)) ds).length < 2 ^ 63 := by
    rw [(sorted_perm _ ds).length_eq]
    exact hlength
  rw [apply, apply, ← List.map_drop, ← List.map_take]
  apply congrArg (List.map _)
  show slice (Query.cappedCount skip) (Query.cappedCount limit) (sorted (keys.map (Query.resolvedKey ps)) ds) =
    ((slice (Query.cappedCount (c.offset.getD 0)) (Query.cappedCount (c.limit.getD 0))
      (sorted (keys.map (Query.resolvedKey ps)) ds)).drop skip).take limit
  rw [slice_cappedCount _ _ hsorted, slice_cappedCount _ _ hsorted, hoffset, hunlimited, slice, slice,
    if_neg (Nat.ne_of_gt hlimit)]
  simp

end Retrieval

namespace Scope

variable {M : ModelKind} {s : Scope M} {w w' : World M Database.backend} {n : Nat}

/-- The page with the number `i`, counted from zero, of `n` records. -/
def page (s : Scope M) (n i : Nat) : Scope M := (s.skipping (i * n)).limitedTo n

/-- Loading one page after the other, up to one that is empty or fails, and putting the records of the pages together
ends with the outcome. -/
inductive ReadsPages (s : Scope M) (n : Nat) : Nat → World M Database.backend →
    Except (QueryError M Database.backend) (List M.Record) → Prop where
  | last {i : Nat} {w : World M Database.backend} (hpage : ((s.page n i).load w).1 = .ok []) :
    ReadsPages s n i w (.ok [])
  | failed {i : Nat} {w : World M Database.backend} {e : QueryError M Database.backend}
    (hpage : ((s.page n i).load w).1 = .error e) : ReadsPages s n i w (.error e)
  | more {i : Nat} {w : World M Database.backend} {rs : List M.Record}
    {rest : Except (QueryError M Database.backend) (List M.Record)} (hpage : ((s.page n i).load w).1 = .ok rs)
    (hsome : rs ≠ []) (hrest : ReadsPages s n (i + 1) ((s.page n i).load w).2.2 rest) :
    ReadsPages s n i w (rest.map (rs ++ ·))

/-- A scope that leaves no record out is read in pages of a positive size, from a collection that fits in memory. -/
structure Paged (s : Scope M) (n : Nat) (w : World M Database.backend) : Prop where
  positive : 1 ≤ n
  noOffset : s.offset = none
  noLimit : s.limit = none
  plain : ∀ c, w.store.connections.get? s.currentSource.key = some c →
    c.IsPlain ∧ c.collection.documents.length < 2 ^ 63

/-! ### One page -/

theorem Paged.cursor_page (hpaged : s.Paged n w) (i : Nat) :
    ((s.page n i).cursor w).1 = (s.cursor w).1.map fun items => (items.drop (i * n)).take n := by
  have hsliced : s.page n i = s.sliced (some (i * n)) (some n) := rfl
  rw [hsliced]
  refine cursor_sliced fun c selector keys ds hconnection hmatching => ?_
  obtain ⟨hplain, hstored⟩ := hpaged.plain c hconnection
  have hlength := Nat.lt_of_le_of_lt (Collection.length_matching_le hmatching) hstored
  have happly := Retrieval.apply_sliced s.model.properties (c := s.criteria) keys (i * n) hpaged.noOffset hpaged.noLimit
    hpaged.positive hlength
  rw [Connection.cursorOver_of_plain hplain, Connection.cursorOver_of_plain hplain, ← List.map_drop, ← List.map_take,
    ← happly]
  rfl

theorem Paged.load_page (hpaged : s.Paged n w) (i : Nat) :
    ((s.page n i).load w).1 = (s.cursor w).1.bind fun items => ((items.drop (i * n)).take n).mapM s.recordOf := by
  rw [load_answer w rfl, fetch_answer, hpaged.cursor_page]
  cases (s.cursor w).1 <;> rfl

theorem alike_load_page (s : Scope M) (w : World M Database.backend) (n i : Nat) :
    Database.Alike w.store ((s.page n i).load w).2.2.store := by
  rw [world_load w rfl]
  exact alike_executed .find _ w

/-- Pages are asked for under the same conditions as long as the collection stays as it is. -/
theorem Paged.of_alike (hpaged : s.Paged n w) (halike : Database.Alike w.store w'.store) : s.Paged n w' := by
  refine ⟨hpaged.positive, hpaged.noOffset, hpaged.noLimit, fun c' hc' => ?_⟩
  obtain ⟨-, hnone⟩ | ⟨c, d, hc, hd, hholding⟩ := halike.connections s.currentSource.key
  · rw [hnone] at hc'
    cases hc'
  · cases hd.symm.trans hc'
    have hplain := hpaged.plain c hc
    simp only [Connection.holding, Prod.mk.injEq] at hholding
    rwa [Connection.IsPlain, hholding.1, hholding.2.1, hholding.2.2] at hplain

theorem Paged.after_page (hpaged : s.Paged n w) (i : Nat) : s.Paged n ((s.page n i).load w).2.2 :=
  hpaged.of_alike (alike_load_page s w n i)

theorem staysReady_load_page (n i : Nat) (hstays : s.model.StaysReady (w.indexState s.model)) :
    s.model.StaysReady (((s.page n i).load w).2.2.indexState s.model) := by
  rw [world_load w rfl]
  exact staysReady_executed .find (s.page n i) w hstays

/-! ### From a page on -/

/-- The records from a page on, built from what the scope itself gets. -/
def recordsFrom (s : Scope M) (n i : Nat) (w : World M Database.backend) :
    Except (QueryError M Database.backend) (List M.Record) :=
  (s.cursor w).1.bind fun items => (items.drop (i * n)).mapM s.recordOf

theorem recordsFrom_zero (s : Scope M) (n : Nat) (w : World M Database.backend) :
    s.recordsFrom n 0 w = (s.fetch w).1 := by
  rw [recordsFrom, Nat.zero_mul]
  rfl

theorem recordsFrom_of_alike (n i : Nat) (halike : Database.Alike w.store w'.store) (hready : w.IndexesReady s.model)
    (hready' : w'.IndexesReady s.model) : s.recordsFrom n i w' = s.recordsFrom n i w := by
  rw [recordsFrom, recordsFrom, cursor_of_alike halike (hready.trans hready'.symm)]

theorem ready_of_recordsFrom {i : Nat} {rs : List M.Record} (hrecords : s.recordsFrom n i w = .ok rs) :
    w.IndexesReady s.model := by
  obtain ⟨items, hcursor, -⟩ := bind_eq_ok hrecords
  exact (sent_of_cursor hcursor).choose_spec.2.1

/-- The records from a page on are those of the page and then those from the next page on. -/
theorem Paged.recordsFrom_eq (hpaged : s.Paged n w) (i : Nat) :
    s.recordsFrom n i w = ((s.page n i).load w).1 >>= fun rs => (s.recordsFrom n (i + 1) w).map (rs ++ ·) := by
  rw [hpaged.load_page, recordsFrom, recordsFrom]
  cases (s.cursor w).1 with
  | error e => rfl
  | ok items =>
    show (items.drop (i * n)).mapM s.recordOf = ((items.drop (i * n)).take n).mapM s.recordOf >>= fun rs =>
      ((items.drop ((i + 1) * n)).mapM s.recordOf).map (rs ++ ·)
    rw [mapM_split n (items.drop (i * n)), List.drop_drop, Nat.succ_mul]

theorem Paged.recordsFrom_of_empty (hpaged : s.Paged n w) {i : Nat} (hpage : ((s.page n i).load w).1 = .ok []) :
    s.recordsFrom n i w = .ok [] := by
  rw [hpaged.load_page] at hpage
  obtain ⟨items, hcursor, hnone⟩ := bind_eq_ok hpage
  have hlength := mapM_length_of_ok hnone
  have hpositive := hpaged.positive
  have hrest : items.drop (i * n) = [] := by
    apply List.eq_nil_of_length_eq_zero
    rw [List.length_take, List.length_nil] at hlength
    omega
  rw [recordsFrom, hcursor]
  show (items.drop (i * n)).mapM s.recordOf = _
  rw [hrest]
  rfl

/-! ### From one page to the next -/

/-- Pages that give records up to the end give those that the scope gets. -/
theorem ReadsPages.records_eq {i : Nat} {outcome : Except (QueryError M Database.backend) (List M.Record)}
    (hreads : s.ReadsPages n i w outcome) (hpaged : s.Paged n w) {rs : List M.Record} (houtcome : outcome = .ok rs) :
    s.recordsFrom n i w = .ok rs := by
  induction hreads generalizing rs with
  | last hpage =>
    cases houtcome
    exact hpaged.recordsFrom_of_empty hpage
  | failed hpage => cases houtcome
  | @more i w _ _ hpage _ _ ih =>
    obtain ⟨rest, hrest, rfl⟩ := map_eq_ok houtcome
    have hnext := ih (hpaged.after_page _) hrest
    -- Both pages gave records, so the indexes could be had for either, and the collection answers as before.
    have hready : w.IndexesReady s.model := ready_of_fetch (s := s.page n i) ((load_answer w rfl).symm.trans hpage)
    rw [recordsFrom_of_alike n _ (alike_load_page s w n i) hready (ready_of_recordsFrom hnext)] at hnext
    rw [hpaged.recordsFrom_eq, hpage, hnext]
    rfl

/-- With indexes that can be had for every page, the pages end as the scope does. -/
theorem ReadsPages.outcome_eq {i : Nat} {outcome : Except (QueryError M Database.backend) (List M.Record)}
    (hreads : s.ReadsPages n i w outcome) (hpaged : s.Paged n w)
    (hstays : s.model.StaysReady (w.indexState s.model)) : outcome = s.recordsFrom n i w := by
  induction hreads with
  | last hpage => exact (hpaged.recordsFrom_of_empty hpage).symm
  | failed hpage =>
    rw [hpaged.recordsFrom_eq, hpage]
    rfl
  | @more i w _ _ hpage _ _ ih =>
    -- What is left is read from the world that the page left, which answers as before.
    have hnext := staysReady_load_page n i hstays
    rw [hpaged.recordsFrom_eq, hpage, ih (hpaged.after_page _) hnext,
      recordsFrom_of_alike n _ (alike_load_page s w n i) hstays.ready hnext.ready]
    rfl

/-- The pages end: there is one of which no item is left. -/
theorem Paged.exists_outcome (hpaged : s.Paged n w) (hstays : s.model.StaysReady (w.indexState s.model)) (i : Nat) :
    ∃ outcome, s.ReadsPages n i w outcome := by
  cases hcursor : (s.cursor w).1 with
  | error e =>
    refine ⟨.error e, .failed ?_⟩
    rw [hpaged.load_page, hcursor]
    rfl
  | ok items =>
    -- The bound on the items left is the measure: every page takes one at least, as its size is positive.
    obtain ⟨k, hk⟩ : ∃ k, items.length ≤ i * n + k := ⟨items.length, Nat.le_add_left _ _⟩
    induction k generalizing i w with
    | zero =>
      have hnone : (items.drop (i * n)).take n = [] :=
        (congrArg (List.take n) (List.drop_eq_nil_of_le hk)).trans List.take_nil
      refine ⟨.ok [], .last ?_⟩
      rw [hpaged.load_page, hcursor, Except.bind, hnone]
      rfl
    | succ k ih =>
      cases hpage : ((s.page n i).load w).1 with
      | error e => exact ⟨.error e, .failed hpage⟩
      | ok rs =>
        cases rs with
        | nil => exact ⟨.ok [], .last hpage⟩
        | cons r rs =>
          have hleft : items.length ≤ (i + 1) * n + k := by
            have hpositive := hpaged.positive
            rw [Nat.succ_mul]
            omega
          have hnext := staysReady_load_page n i hstays
          have hsame := cursor_of_alike (alike_load_page s w n i) (hstays.ready.trans hnext.ready.symm)
          obtain ⟨rest, hrest⟩ := ih (hpaged.after_page i) hnext (i + 1) (hsame.symm.trans hcursor) hleft
          exact ⟨_, .more hpage (List.cons_ne_nil r rs) hrest⟩

/-! ### All pages -/

theorem load_of_kept (hkept : ∀ rs, s.records = some rs → (s.reload w).1 = .ok rs) :
    (s.load w).1 = (s.fetch w).1 := by
  cases hrecords : s.records with
  | none => exact load_answer w hrecords
  | some rs =>
    have hreload := hkept rs hrecords
    rw [reload, load_answer w rfl] at hreload
    rw [load_of_records w hrecords]
    exact hreload.symm

theorem Paged.readsPages_iff (hpaged : s.Paged n w) (hstays : s.model.StaysReady (w.indexState s.model))
    (outcome : Except (QueryError M Database.backend) (List M.Record)) :
    s.ReadsPages n 0 w outcome ↔ outcome = (s.fetch w).1 := by
  rw [← recordsFrom_zero s n]
  constructor
  · exact fun hreads => hreads.outcome_eq hpaged hstays
  · rintro rfl
    obtain ⟨outcome, hreads⟩ := hpaged.exists_outcome hstays 0
    rwa [← hreads.outcome_eq hpaged hstays]

theorem Paged.load_page_of_fetch (hpaged : s.Paged n w) {rs : List M.Record} (hfetch : (s.fetch w).1 = .ok rs)
    (i : Nat) : ((s.page n i).load w).1 = .ok ((rs.drop (i * n)).take n) := by
  obtain ⟨items, hcursor, hitems⟩ := fetch_eq_ok hfetch
  rw [hpaged.load_page, hcursor]
  exact mapM_take_of_ok (mapM_drop_of_ok hitems (i * n)) n

/-- Pages that are read from an unchanging collection until one is empty are the records that a load gives, put
together, and each of them is a stretch of these, whenever it is asked for. Reading the pages ends just as a load does
if the indexes can be had as often as they are needed, and then a scope that the collection accepts and whose documents
become records has its pages, of the answer that its clauses ask for. -/
theorem pages_partition {c : Connection} (hpositive : 1 ≤ n) (hoffset : s.offset = none) (hlimit : s.limit = none)
    (hconnection : w.store.connections.get? s.currentSource.key = some c) (hplain : c.IsPlain)
    (hlength : c.collection.documents.length < 2 ^ 63)
    (hconsistent : s.criteria.SortsConsistently s.model.properties c.collection.documents)
    (hkept : ∀ rs, s.records = some rs → (s.reload w).1 = .ok rs) :
    (∀ rs, s.ReadsPages n 0 w (.ok rs) → (s.load w).1 = .ok rs) ∧
    (∀ rs, (s.load w).1 = .ok rs → ∀ w' : World M Database.backend, Database.Alike w.store w'.store →
      w'.IndexesReady s.model → ∀ i, ((s.page n i).load w').1 = .ok ((rs.drop (i * n)).take n)) ∧
    (s.model.StaysReady (w.indexState s.model) →
      (∀ outcome, s.ReadsPages n 0 w outcome ↔ outcome = (s.load w).1) ∧
      ∀ q, s.compile = .ok q → Collection.Accepts q.selector c.collection.documents →
        (∀ d ∈ c.collection.documents.filter (·.isMatch q.selector),
          ∃ r, s.model.record (Retrieval.project s.select d) = .ok r) →
        ∃ rs, s.criteria.evaluate s.model c.collection.documents = .ok rs ∧ (s.load w).1 = .ok rs ∧
          s.ReadsPages n 0 w (.ok rs)) := by
  have hpaged : s.Paged n w := by
    refine ⟨hpositive, hoffset, hlimit, fun d hd => ?_⟩
    cases hconnection.symm.trans hd
    exact ⟨hplain, hlength⟩
  rw [load_of_kept hkept]
  refine ⟨?_, ?_, fun hstays => ⟨hpaged.readsPages_iff hstays, ?_⟩⟩
  · intro rs hreads
    exact (recordsFrom_zero s n w).symm.trans (hreads.records_eq hpaged rfl)
  · intro rs hfetch w' halike hready i
    have hsame := recordsFrom_of_alike n 0 halike (ready_of_fetch hfetch) hready
    rw [recordsFrom_zero, recordsFrom_zero] at hsame
    exact (hpaged.of_alike halike).load_page_of_fetch (hsame.trans hfetch) i
  · intro q hcompile haccepts hbuilds
    have hsettled : s.unloaded.Settled w c q := ⟨hcompile, hconnection, hplain, haccepts, hlength⟩
    obtain ⟨rs, hrs⟩ := hsettled.load rfl hstays.ready hbuilds
    have hfetch : (s.fetch w).1 = .ok rs := (load_answer (s := s.unloaded) w rfl).symm.trans hrs
    have hreaches : s.Reaches w q c := ⟨hcompile, hstays.ready, hconnection, hplain.1⟩
    have hevaluate := fetch_eq_evaluate hreaches hplain haccepts hconsistent hlength
    exact ⟨rs, hevaluate.symm.trans hfetch, hfetch, (hpaged.readsPages_iff hstays _).mpr hfetch.symm⟩

/-! ### Three people, two of one age, on two pages -/

def oldestFirst : Scope Model.kind := (all (person .once).schema).orderBy [.expression "age DESC"]

def oldestFirstQuery : Query := ⟨[], [("sort", .array [.array [.string "years", .string "descending"]])]⟩

def oldestFirstRecords : List Attributes :=
  [[("age", .integer 85), ("id", .integer 2)], [("age", .integer 36), ("id", .integer 1)],
    [("age", .integer 36), ("id", .integer 3)]]

theorem load_oldestFirst : (oldestFirst.load peopleWorld).1 = .ok oldestFirstRecords := by rfl

theorem oldestFirst_sortsConsistently :
    oldestFirst.criteria.SortsConsistently (person .once).properties people.collection.documents :=
  youngerAdults_sortsConsistently .once

theorem pages_of_oldestFirst :
    oldestFirst.ReadsPages 2 0 peopleWorld (.ok oldestFirstRecords) ∧
    ((oldestFirst.page 2 1).load peopleWorld).1 = .ok [[("age", .integer 36), ("id", .integer 3)]] ∧
    ((oldestFirst.page 2 2).load peopleWorld).1 = .ok [] := by
  obtain ⟨-, hpages, hloads⟩ := pages_partition (n := 2) (s := oldestFirst) (w := peopleWorld)
    (by decide) rfl rfl (rfl : peopleDatabase.connections.get? "people" = some people) ⟨rfl, rfl⟩ people_length
    oldestFirst_sortsConsistently fun rs hrecords => by cases hrecords
  have hstays : (person .once).schema.StaysReady (peopleWorld.indexState (person .once).schema) :=
    setsFlag_once.staysReady rfl
  obtain ⟨rs, -, hrs, hreads⟩ := (hloads hstays).2 oldestFirstQuery rfl (fun _ _ => ⟨true, rfl⟩) fun d _ => ⟨_, rfl⟩
  cases hrs.symm.trans load_oldestFirst
  have hpage := hpages _ load_oldestFirst peopleWorld (fun _ => rfl) rfl
  exact ⟨hreads, hpage 1, hpage 2⟩

end Scope

end DocQuery
