import Mathlib.Data.List.Lattice
import DocQuery.Proofs.Query.Demands
import DocQuery.Proofs.Scope.Copies
import DocQuery.Proofs.Scope.Evaluation
import DocQuery.Proofs.Selector.Conjunction

/-!
# Conditions on other fields

Conditions on stored fields that no condition of a scope is on neither displace nor are displaced by one: they add their
demands behind those of the scope. So narrowing by them is filtering. It commutes with the sorting of the collection,
and it finds an answer whenever the scope and the conditions alone do, as every document then can be tested on all
demands. What a scope narrowed twice asks of a field is up to the conditions on that field, so the order of two sets of
conditions only counts where they meet.
-/

namespace DocQuery

theorem Connection.accepts_of_find {c : Connection} {selector options : Document} {items : Cursor Database.backend}
    (hfind : (c.find selector options).1 = .ok items) :
    c.reachable = true ∧ Collection.Accepts selector c.collection.documents := by
  cases hreachable : c.reachable with
  | false =>
    rw [find_of_unreachable hreachable] at hfind
    cases hfind
  | true =>
    rw [find_of_reachable hreachable] at hfind
    obtain ⟨found, hsearch, -⟩ := map_eq_ok (mapError_eq_ok hfind)
    obtain ⟨retrieval, -, hrest⟩ := bind_eq_ok hsearch
    obtain ⟨matched, hmatching, -⟩ := bind_eq_ok hrest
    exact ⟨rfl, Collection.accepts_of_matching (mapError_eq_ok hmatching)⟩

theorem Database.connection_of_find {db : Database} {key : String} {selector options : Document}
    {items : Cursor Database.backend} (hfind : (db.find key selector options).1 = .ok items) :
    ∃ c, db.connections.get? key = some c ∧ (c.find selector options).1 = .ok items := by
  cases hconnection : db.connections.get? key with
  | none =>
    rw [find, hconnection] at hfind
    cases hfind
  | some c =>
    rw [find_of_connection hconnection] at hfind
    exact ⟨c, rfl, hfind⟩

/-- Narrowing the documents that match commutes with putting them in order. -/
theorem Criteria.ordered_append {keys : List SortKey} {selector narrower : Document} {stored : List Document}
    (horders : Retrieval.Orders keys stored) (haccepts : Collection.Accepts selector stored)
    (hnarrower : Collection.Accepts narrower stored) :
    ordered keys (selector ++ narrower) stored = (ordered keys selector stored).filter (·.isMatch narrower) := by
  -- Stable sorting is insertion as long as the documents are ordered consistently, and this survives filtering.
  have hmatching := horders.filter (·.isMatch selector)
  have hboth := hmatching.filter (·.isMatch narrower)
  rw [ordered, ordered, Collection.filter_append haccepts hnarrower, ← Retrieval.sorted_eq_insertionSort hboth,
    ← Retrieval.sorted_eq_insertionSort hmatching, Retrieval.filter_sorted hmatching]

namespace Scope

variable {M : ModelKind}

def targets (s : Scope M) : List String := Query.targets s.model.properties (s.criteria.conditions.getD [])

/-- The scope of the conditions alone, on the documents that a scope reads. -/
def alone (s : Scope M) (cs : Conditions) : Scope M := { all s.model with source := s.source, conditions := [cs] }

/-- What the conditions of a scope ask of the documents, if they can be compiled. -/
def selector (s : Scope M) : Document := Query.demands s.model.properties (s.criteria.conditions.getD [])

variable {s : Scope M} {w : World M Database.backend} {c : Connection} {cs ds : Conditions} {keys : List SortKey}
  {items : Cursor Database.backend}

/-! ### Answers -/

/-- A scope that sorts by the given fields gets its documents over a connection. -/
structure Finds (s : Scope M) (w : World M Database.backend) (c : Connection) (keys : List SortKey) : Prop where
  faultless : Query.fault? (s.criteria.conditions.getD []) = none
  sortable : SortTerm.allSortKeys s.order = .ok keys
  ready : w.IndexesReady s.model
  connected : w.store.connections.get? s.currentSource.key = some c
  reachable : c.reachable = true
  accepts : Collection.Accepts s.selector c.collection.documents

def answer (s : Scope M) (c : Connection) (keys : List SortKey) : List Document :=
  (Query.retrieval s.model.properties s.criteria keys).apply (c.collection.documents.filter (·.isMatch s.selector))

theorem Finds.compile (hfinds : s.Finds w c keys) :
    s.compile = .ok ⟨s.selector, Query.optionsOf s.model.properties s.criteria keys⟩ :=
  Query.compile_of_resolved (Query.selectorOf_eq_ok_iff.mpr ⟨hfinds.faultless, rfl⟩) hfinds.sortable

theorem Finds.cursor (hfinds : s.Finds w c keys) : (s.cursor w).1 = .ok (c.cursorOver (s.answer c keys)) := by
  rw [cursor_answer hfinds.compile hfinds.ready]
  show (w.store.find _ _ _).1.mapError _ = _
  rw [Database.find_of_connection hfinds.connected]
  show ((c.find _ _).1).mapError _ = _
  rw [Connection.find_of_reachable hfinds.reachable,
    Collection.search_of_accepts (Retrieval.ofOptions_optionsOf ..) hfinds.accepts]
  rfl

/-- A scope that gives an answer got its documents over the connection of its source. -/
theorem finds_of_cursor (hcursor : (s.cursor w).1 = .ok items) : ∃ c keys, s.Finds w c keys := by
  obtain ⟨q, hcompile, hready, hsent⟩ := sent_of_cursor hcursor
  obtain ⟨selector, keys, hselector, hkeys, rfl⟩ := Query.compile_eq_ok hcompile
  obtain ⟨hfaultless, rfl⟩ := Query.selectorOf_eq_ok_iff.mp hselector
  obtain ⟨c, hconnected, hfind⟩ := Database.connection_of_find hsent
  obtain ⟨hreachable, haccepts⟩ := Connection.accepts_of_find hfind
  exact ⟨c, keys, hfaultless, hkeys, hready, hconnected, hreachable, haccepts⟩

/-- Without a limit and an offset a scope gets all documents that match, in order. -/
theorem Finds.cursor_of_unsliced (hfinds : s.Finds w c keys) (hlimit : s.limit = none) (hoffset : s.offset = none)
    (hplain : c.IsPlain) (hconsistent : s.criteria.SortsConsistently s.model.properties c.collection.documents) :
    (s.cursor w).1 = .ok ((Criteria.ordered (keys.map (Query.resolvedKey s.model.properties)) s.selector
      c.collection.documents).map fun d => .ok (Retrieval.project s.select d)) := by
  have hslice : ∀ ds, Retrieval.slice (Query.cappedCount (s.criteria.offset.getD 0))
      (Query.cappedCount (s.criteria.limit.getD 0)) ds = ds := by
    intro ds
    rw [criteria, hlimit, hoffset]
    rfl
  have horders := hconsistent.orders hfinds.sortable
  have hanswer : s.answer c keys = (Criteria.ordered (keys.map (Query.resolvedKey s.model.properties)) s.selector
      c.collection.documents).map (Retrieval.project s.select) := by
    rw [answer, Retrieval.apply, Criteria.ordered,
      ← Retrieval.sorted_eq_insertionSort (horders.filter _)]
    exact congrArg _ (hslice _)
  rw [hfinds.cursor, Connection.cursorOver_of_plain hplain, hanswer, List.map_map]
  rfl

/-! ### Narrowing -/

theorem conditions_having (s : Scope M) (cs : Conditions) :
    (s.having cs).criteria.conditions.getD [] = (s.criteria.conditions.getD []).merge cs := by
  rw [conditions_criteria, conditions_criteria, having, List.foldl_append]
  rfl

theorem conditions_alone (s : Scope M) (cs : Conditions) :
    (s.alone cs).criteria.conditions.getD [] = Entries.ofList cs := rfl

section Fresh

variable (hfresh : s.targets.Disjoint (Query.targets s.model.properties cs))

include hfresh

theorem conditions_having_of_fresh :
    (s.having cs).criteria.conditions.getD [] = s.criteria.conditions.getD [] ++ (s.alone cs).criteria.conditions.getD [] := by
  rw [conditions_having, Query.merge_of_apart hfresh, conditions_alone]

theorem selector_having_of_fresh : (s.having cs).selector = s.selector ++ (s.alone cs).selector := by
  rw [selector, conditions_having_of_fresh hfresh]
  refine Query.demands_append fun name hs hcs => hfresh hs ?_
  rwa [conditions_alone, Query.mem_targets_ofList] at hcs

theorem Finds.having {others : List SortKey} (hs : s.Finds w c keys) (hcs : (s.alone cs).Finds w c others) :
    (s.having cs).Finds w c keys where
  faultless := by rw [conditions_having_of_fresh hfresh, Query.fault?_append, hs.faultless, hcs.faultless]; rfl
  sortable := hs.sortable
  ready := hs.ready
  connected := hs.connected
  reachable := hs.reachable
  accepts := by
    rw [selector_having_of_fresh hfresh]
    exact hs.accepts.append hcs.accepts

end Fresh

/-- The connection that a scope uses is that of its source, which the conditions alone share. -/
theorem finds_alone_of_cursor (hs : s.Finds w c keys) (hcursor : ((s.alone cs).cursor w).1 = .ok items) :
    (s.alone cs).Finds w c [] := by
  obtain ⟨c', keys', hfinds⟩ := finds_of_cursor hcursor
  cases hfinds.connected.symm.trans hs.connected
  cases hfinds.sortable
  exact hfinds

/-! ### Narrowing twice -/

theorem mem_targets_having {name : String} :
    name ∈ (s.having cs).targets ↔ name ∈ s.targets ∨ name ∈ Query.targets s.model.properties cs := by
  rw [targets, conditions_having]
  exact Query.mem_targets_merge

theorem isMatch_having_comm (s : Scope M)
    (hapart : (Query.targets s.model.properties cs).Disjoint (Query.targets s.model.properties ds)) (d : Document) :
    d.isMatch ((s.having cs).having ds).selector = d.isMatch ((s.having ds).having cs).selector := by
  apply Document.isMatch_congr (Query.nodup_keys_demands _) (Query.nodup_keys_demands _)
  intro name
  simp only [conditions_having]
  exact Query.get?_demands_merge_comm _ hapart name

theorem answer_having_comm (s : Scope M)
    (hapart : (Query.targets s.model.properties cs).Disjoint (Query.targets s.model.properties ds)) (c : Connection)
    (keys : List SortKey) : ((s.having cs).having ds).answer c keys = ((s.having ds).having cs).answer c keys := by
  rw [answer, answer]
  simp only [isMatch_having_comm s hapart]
  rfl

/-- A scope without limit and offset that is narrowed by conditions on other stored fields gives the documents that it
gave before and that match the conditions alone, in the same order, if it and the conditions alone get an answer. So
narrowing by two sets of conditions on different fields commutes: where both orders get an answer it is the same, and
both get one where the scope and the conditions alone do. -/
theorem having_intersects :
    (∀ (s : Scope M) (cs : Conditions) (w : World M Database.backend) (c : Connection)
      (items others : Cursor Database.backend),
      s.limit = none → s.offset = none → s.targets.Disjoint (Query.targets s.model.properties cs) →
      w.store.connections.get? s.currentSource.key = some c → c.IsPlain →
      s.criteria.SortsConsistently s.model.properties c.collection.documents →
      (s.cursor w).1 = .ok items → ((s.alone cs).cursor w).1 = .ok others →
      ∃ q narrower found keys, s.compile = .ok q ∧ (s.alone cs).compile = .ok narrower ∧
        SortTerm.allSortKeys s.order = .ok keys ∧
        found = Criteria.ordered (keys.map (Query.resolvedKey s.model.properties)) q.selector c.collection.documents ∧
        items = found.map (fun d => .ok (Retrieval.project s.select d)) ∧
        ((s.having cs).cursor w).1 =
          .ok ((found.filter (·.isMatch narrower.selector)).map fun d => .ok (Retrieval.project s.select d))) ∧
    (∀ (s : Scope M) (cs ds : Conditions) (w : World M Database.backend) (items items' : Cursor Database.backend),
      (Query.targets s.model.properties cs).Disjoint (Query.targets s.model.properties ds) →
      (((s.having cs).having ds).cursor w).1 = .ok items → (((s.having ds).having cs).cursor w).1 = .ok items' →
      items = items') ∧
    ∀ (s : Scope M) (cs ds : Conditions) (w : World M Database.backend) (items others rest : Cursor Database.backend),
      s.targets.Disjoint (Query.targets s.model.properties cs) → s.targets.Disjoint (Query.targets s.model.properties ds) →
      (Query.targets s.model.properties cs).Disjoint (Query.targets s.model.properties ds) →
      (s.cursor w).1 = .ok items → ((s.alone cs).cursor w).1 = .ok others → ((s.alone ds).cursor w).1 = .ok rest →
      ∃ both, (((s.having cs).having ds).cursor w).1 = .ok both ∧ (((s.having ds).having cs).cursor w).1 = .ok both := by
  refine ⟨?_, ?_, ?_⟩
  · intro s cs w c items others hlimit hoffset hfresh hconnection hplain hconsistent hs hcs
    obtain ⟨c', keys, hfinds⟩ := finds_of_cursor hs
    cases hfinds.connected.symm.trans hconnection
    have hothers := finds_alone_of_cursor hfinds hcs
    have horders := hconsistent.orders hfinds.sortable
    refine ⟨_, _, _, keys, hfinds.compile, hothers.compile, hfinds.sortable, rfl, ?_, ?_⟩
    · cases hs.symm.trans (hfinds.cursor_of_unsliced hlimit hoffset hplain hconsistent)
      rfl
    · rw [← Criteria.ordered_append horders hfinds.accepts hothers.accepts]
      have hnarrowed := (hfinds.having hfresh hothers).cursor_of_unsliced hlimit hoffset hplain hconsistent
      rwa [selector_having_of_fresh hfresh] at hnarrowed
  · intro s cs ds w items items' hapart hcs hds
    obtain ⟨c, keys, hfinds⟩ := finds_of_cursor hcs
    obtain ⟨c', keys', hother⟩ := finds_of_cursor hds
    cases hfinds.connected.symm.trans hother.connected
    cases hfinds.sortable.symm.trans hother.sortable
    cases hcs.symm.trans hfinds.cursor
    cases hds.symm.trans hother.cursor
    rw [answer_having_comm s hapart]
  · intro s cs ds w items others rest hcs hds hapart hitems hothers hrest
    obtain ⟨c, keys, hfinds⟩ := finds_of_cursor hitems
    have hfirst := finds_alone_of_cursor hfinds hothers
    have hsecond := finds_alone_of_cursor hfinds hrest
    have hds' : (s.having cs).targets.Disjoint (Query.targets s.model.properties ds) :=
      fun name hname => (mem_targets_having.mp hname).elim (fun h => hds h) fun h => hapart h
    have hcs' : (s.having ds).targets.Disjoint (Query.targets s.model.properties cs) :=
      fun name hname => (mem_targets_having.mp hname).elim (fun h => hcs h) fun h => hapart.symm h
    refine ⟨_, ((hfinds.having hcs hfirst).having hds' hsecond).cursor, ?_⟩
    rw [((hfinds.having hds hsecond).having hcs' hfirst).cursor, answer_having_comm s hapart]

/-! ### Adults by age, but for the first person -/

/-- The people older than thirty, the oldest first. -/
def adults : Scope Model.kind :=
  ((all (person .once).schema).having [(.operator ⟨"age", .known .above⟩, .integer 30)]).orderBy [.expression "age DESC"]

def notTheFirst : Conditions := [(.operator ⟨"id", .known .above⟩, .integer 1)]

/-- A field that nobody has is null. -/
def nameless : Conditions := [(.field "name", .null)]

def aged : Conditions := [(.field "age", .integer 36)]

def byAge : List SortKey := [⟨"age", .descending⟩]

theorem finds_adults : adults.Finds peopleWorld people byAge :=
  ⟨rfl, rfl, rfl, rfl, rfl, Collection.accepts_of_matching rfl⟩

theorem finds_notTheFirst : (adults.alone notTheFirst).Finds peopleWorld people [] :=
  ⟨rfl, rfl, rfl, rfl, rfl, Collection.accepts_of_matching rfl⟩

theorem finds_nameless : (adults.alone nameless).Finds peopleWorld people [] :=
  ⟨rfl, rfl, rfl, rfl, rfl, Collection.accepts_of_matching rfl⟩

theorem finds_aged_notTheFirst : ((adults.having aged).having notTheFirst).Finds peopleWorld people byAge :=
  ⟨rfl, rfl, rfl, rfl, rfl, Collection.accepts_of_matching rfl⟩

theorem finds_notTheFirst_aged : ((adults.having notTheFirst).having aged).Finds peopleWorld people byAge :=
  ⟨rfl, rfl, rfl, rfl, rfl, Collection.accepts_of_matching rfl⟩

theorem adults_sortConsistently :
    adults.criteria.SortsConsistently adults.model.properties people.collection.documents :=
  youngerAdults_sortsConsistently .once

theorem adults_but_the_first :
    ((adults.having notTheFirst).cursor peopleWorld).1 =
      .ok [.ok [("_id", .int64 2), ("years", .int64 85)], .ok [("_id", .int64 3), ("years", .int64 36)]] ∧
    (((adults.having notTheFirst).having aged).cursor peopleWorld).1 =
      .ok [.ok [("_id", .int64 3), ("years", .int64 36)]] ∧
    ∃ both, (((adults.having notTheFirst).having nameless).cursor peopleWorld).1 = .ok both ∧
      (((adults.having nameless).having notTheFirst).cursor peopleWorld).1 = .ok both := by
  obtain ⟨hnarrow, hequal, hcommute⟩ := having_intersects
  have hadults := finds_adults.cursor_of_unsliced rfl rfl ⟨rfl, rfl⟩ adults_sortConsistently
  refine ⟨?_, ?_, ?_⟩
  · obtain ⟨q, narrower, found, keys, hq, hnarrower, hkeys, rfl, -, hnarrowed⟩ := hnarrow adults notTheFirst _ people _ _
      rfl rfl (List.disjoint_left.mpr (by decide)) rfl ⟨rfl, rfl⟩ adults_sortConsistently hadults finds_notTheFirst.cursor
    cases hq.symm.trans finds_adults.compile
    cases hnarrower.symm.trans finds_notTheFirst.compile
    cases hkeys.symm.trans finds_adults.sortable
    exact hnarrowed.trans rfl
  · have hfirst := finds_aged_notTheFirst.cursor_of_unsliced rfl rfl ⟨rfl, rfl⟩ adults_sortConsistently
    have hother := finds_notTheFirst_aged.cursor
    rw [hother, ← hequal adults aged notTheFirst _ _ _ (List.disjoint_left.mpr (by decide)) hfirst hother]
    rfl
  · exact hcommute adults notTheFirst nameless _ _ _ _ (List.disjoint_left.mpr (by decide))
      (List.disjoint_left.mpr (by decide)) (List.disjoint_left.mpr (by decide)) hadults finds_notTheFirst.cursor
      finds_nameless.cursor

end Scope

end DocQuery
