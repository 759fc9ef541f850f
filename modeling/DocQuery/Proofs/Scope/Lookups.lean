import DocQuery.Proofs.Scope.Intersection
import DocQuery.Proofs.Scope.Sizes

/-!
# Looking records up by a value

Looking up by a value adds a plain condition, which is merged with the conditions of the scope like any other. A stored
field has one place in a selector, so the condition narrows the scope when no condition of the scope is on its field.
Otherwise the last condition counts, and the value looked up takes the place of what the scope asks of the field. All that
the scope asks of other fields it goes on asking.
-/

namespace DocQuery

namespace Scope

variable {M : ModelKind}

/-- The query of a scope asks for a document. -/
def Covers (s : Scope M) (d : Document) : Prop := ∃ q, s.compile = .ok q ∧ d.satisfies q.selector = .ok true

variable {s : Scope M} {w : World M Database.backend} {field : String} {v : Value} {d : Document}

theorem selector_of_compile {q : Query} (hcompile : s.compile = .ok q) : q.selector = s.selector := by
  obtain ⟨selector, keys, hselector, -, rfl⟩ := Query.compile_eq_ok hcompile
  exact (Query.selectorOf_eq_ok_iff.mp hselector).2.symm

theorem covers_iff : s.Covers d ↔ (∃ q, s.compile = .ok q) ∧
    ∀ name demand, s.selector.get? name = some demand → Selector.meets (d.lookUp? name) demand = .ok true := by
  rw [← exists_and_right]
  refine exists_congr fun q => and_congr_right fun hcompile => ?_
  rw [selector_of_compile hcompile]
  exact Document.satisfies_eq_true_iff (Query.nodup_keys_demands _)

/-! ### What a look-up asks -/

theorem selector_findAllBy (s : Scope M) (field : String) (v : Value) :
    (s.findAllBy field v).selector =
      Query.demands s.model.properties ((s.criteria.conditions.getD []).put (.field field) v) := by
  rw [selector, conditions_findAllBy]
  rfl

theorem compiles_of_findAllBy {q : Query} (hcompile : (s.findAllBy field v).compile = .ok q) :
    ∃ q, s.compile = .ok q := by
  rw [exists_ok_iff]
  intro e herror
  rw [compile_findAllBy_eq_error_iff.mpr herror] at hcompile
  cases hcompile

/-- A document that a look-up finds meets all that the scope asks of other fields. -/
theorem Covers.meets_of_ne (hcovers : (s.findAllBy field v).Covers d) {name : String} {demand : StoreValue}
    (hname : name ≠ s.model.properties.resolve field) (hdemand : s.selector.get? name = some demand) :
    Selector.meets (d.lookUp? name) demand = .ok true := by
  refine (covers_iff.mp hcovers).2 name demand ?_
  rw [selector_findAllBy, Query.get?_demands_put_of_ne _ _ hname]
  exact hdemand

/-- What a look-up finds is in the scope if it meets what the scope asks of the field. -/
theorem Covers.covers_iff_meets (hcovers : (s.findAllBy field v).Covers d) :
    s.Covers d ↔ ∀ demand, s.selector.get? (s.model.properties.resolve field) = some demand →
      Selector.meets (d.lookUp? (s.model.properties.resolve field)) demand = .ok true := by
  rw [covers_iff]
  constructor
  · rintro ⟨-, hall⟩ demand hdemand
    exact hall _ demand hdemand
  · intro hfield
    have ⟨q, hcompile, _⟩ := hcovers
    refine ⟨compiles_of_findAllBy hcompile, fun name demand hdemand => ?_⟩
    by_cases hname : name = s.model.properties.resolve field
    · subst hname
      exact hfield demand hdemand
    · exact hcovers.meets_of_ne hname hdemand

theorem Covers.of_fresh (hcovers : (s.findAllBy field v).Covers d) (hfresh : s.model.properties.resolve field ∉ s.targets) :
    s.Covers d := by
  refine hcovers.covers_iff_meets.mpr fun demand hdemand => ?_
  rw [selector, Query.get?_demands_of_not_mem hfresh] at hdemand
  cases hdemand

/-! ### What a look-up gives -/

theorem Finds.covers {c : Connection} {keys : List SortKey} (hfinds : s.Finds w c keys) {item : Document}
    (hitem : item ∈ s.answer c keys) :
    ∃ d ∈ c.collection.documents, s.Covers d ∧ item = Retrieval.project s.select d := by
  obtain ⟨d, hd, rfl⟩ := Retrieval.mem_apply hitem
  obtain ⟨hstored, hmatch⟩ := List.mem_filter.mp hd
  exact ⟨d, hstored, ⟨_, hfinds.compile, Document.isMatch_iff.mp hmatch⟩, rfl⟩

theorem mem_of_ok_mem_cursorOver {c : Connection} {ds : List Document} (hd : .ok d ∈ c.cursorOver ds) : d ∈ ds := by
  rw [Connection.cursorOver, List.mem_mapIdx] at hd
  obtain ⟨i, hi, hitem⟩ := hd
  split at hitem
  · cases hitem
  · cases hitem
    exact List.getElem_mem hi

/-- The first record of a scope is made of a stored document that the scope asks for. -/
theorem covers_of_first {r : M.Record} (hunloaded : s.records = none) (hfirst : (s.first w).1 = .ok (some r)) :
    ∃ c d, w.store.connections.get? s.currentSource.key = some c ∧ d ∈ c.collection.documents ∧ s.Covers d ∧
      s.model.record (Retrieval.project s.select d) = .ok r := by
  rw [first_answer w hunloaded] at hfirst
  obtain ⟨rs, hitems, hhead⟩ := map_eq_ok hfirst
  obtain ⟨items, hcursor, hrecords⟩ := bind_eq_ok hitems
  obtain ⟨c, keys, hfinds⟩ := finds_of_cursor hcursor
  cases hcursor.symm.trans hfinds.cursor
  cases hanswer : c.cursorOver (s.answer c keys) with
  | nil =>
    rw [hanswer] at hrecords
    cases hrecords
    cases hhead
  | cons item rest =>
    rw [hanswer] at hrecords
    obtain ⟨r', rs', hrecord, -, rfl⟩ := mapM_cons_eq_ok hrecords
    cases hhead
    cases item with
    | error e => cases hrecord
    | ok shown =>
      have hshown : .ok shown ∈ c.cursorOver (s.answer c keys) := by
        rw [hanswer]
        exact List.mem_cons_self
      obtain ⟨d, hstored, hcovers, rfl⟩ := hfinds.covers (mem_of_ok_mem_cursorOver hshown)
      exact ⟨c, d, hfinds.connected, hstored, hcovers, mapError_eq_ok hrecord⟩

/-- A look-up narrows a scope that has no condition on the stored field it goes by: all that it finds, and every record
that it gives, is of the scope. If there is such a condition, then what it finds is of the scope just if it meets what
the scope asks of that field; it does meet what the scope asks of all others. In the place of what the scope asks of the
field the look-up asks for its own value, where no condition on the stored field comes after a plain one that the look-up
replaces. -/
theorem lookups_narrow_other_fields :
    (∀ (s : Scope M) (field : String) (v : Value) (d : Document), (s.findAllBy field v).Covers d →
      (s.model.properties.resolve field ∉ s.targets → s.Covers d) ∧
      (s.Covers d ↔ ∀ demand, s.selector.get? (s.model.properties.resolve field) = some demand →
        Selector.meets (d.lookUp? (s.model.properties.resolve field)) demand = .ok true) ∧
      ∀ name demand, name ≠ s.model.properties.resolve field → s.selector.get? name = some demand →
        Selector.meets (d.lookUp? name) demand = .ok true) ∧
    (∀ (s : Scope M) (field : String) (v : Value),
      (∀ before w after, s.criteria.conditions.getD [] = before ++ (.field field, w) :: after →
        s.model.properties.resolve field ∉ Query.targets s.model.properties after) →
      (s.findAllBy field v).selector.get? (s.model.properties.resolve field) =
        some (s.model.properties.toStore field v)) ∧
    ∀ (s : Scope M) (field : String) (v : Value) (w : World M Database.backend) (r : M.Record),
      (s.findBy field v w).1 = .ok (some r) ∨ field = identityName ∧ (s.find v w).1 = .ok (some r) →
      ∃ c d, w.store.connections.get? s.currentSource.key = some c ∧ d ∈ c.collection.documents ∧
        (s.findAllBy field v).Covers d ∧ (s.model.properties.resolve field ∉ s.targets → s.Covers d) ∧
        s.model.record (Retrieval.project s.select d) = .ok r := by
  refine ⟨?_, ?_, ?_⟩
  · intro s field v d hcovers
    exact ⟨hcovers.of_fresh, hcovers.covers_iff_meets, fun name demand hname => hcovers.meets_of_ne hname⟩
  · intro s field v hlast
    rw [selector_findAllBy]
    exact Query.get?_demands_put s.model.properties (s.criteria.conditions.getD []) field v hlast
  · intro s field v w r hgiven
    have hfirst : ((s.findAllBy field v).first w).1 = .ok (some r) := by
      rcases hgiven with hgiven | ⟨rfl, hgiven⟩
      · exact hgiven
      · exact hgiven
    obtain ⟨c, d, hconnection, hstored, hcovers, hrecord⟩ := covers_of_first rfl hfirst
    exact ⟨c, d, hconnection, hstored, hcovers, hcovers.of_fresh, hrecord⟩

/-! ### Grown-ups and people of one age -/

/-- The people older than thirty. -/
def grownUps : Scope Model.kind := (all (person .once).schema).having [(.operator ⟨"age", .known .above⟩, .integer 30)]

theorem find_grownUp :
    (grownUps.find (.integer 2) peopleWorld).1 = .ok (some [("age", .integer 85), ("id", .integer 2)]) := rfl

theorem found_grownUp_is_grownUp :
    (∃ c d, peopleWorld.store.connections.get? "people" = some c ∧ d ∈ c.collection.documents ∧ grownUps.Covers d ∧
      (person .once).record d = .ok [("age", .integer 85), ("id", .integer 2)]) ∧
    ¬ grownUps.Covers [("_id", .int64 4), ("years", .int64 12)] := by
  obtain ⟨hcovered, -, hgiven⟩ := lookups_narrow_other_fields
  constructor
  · obtain ⟨c, d, hconnection, hstored, -, hcovers, hrecord⟩ := hgiven grownUps identityName (.integer 2) peopleWorld _
      (.inr ⟨rfl, find_grownUp⟩)
    exact ⟨c, d, hconnection, hstored, hcovers (by decide), hrecord⟩
  · have hlookedUp : (grownUps.findAllBy "age" (.integer 12)).Covers [("_id", .int64 4), ("years", .int64 12)] :=
      ⟨_, rfl, rfl⟩
    rw [(hcovered grownUps "age" (.integer 12) _ hlookedUp).2.1]
    intro hmeets
    have hage := hmeets _ rfl
    cases hage

def ofThirtySix : Scope Model.kind := (all (person .once).schema).having aged

theorem unsorted_sortsConsistently {s : Scope M} (stored : List Document) (hunsorted : s.order = []) :
    s.criteria.SortsConsistently s.model.properties stored := by
  intro terms hterms
  rw [criteria, hunsorted] at hterms
  cases hterms
  exact fun term hterm => absurd hterm List.not_mem_nil

theorem lookup_leaves_scope :
    ¬ ∀ (s : Scope Model.kind) (field : String) (v : Value) (w : World Model.kind Database.backend) (c : Connection)
      (found narrowed : Cursor Database.backend),
      w.store.connections.get? s.currentSource.key = some c → c.IsPlain → (s.cursor w).1 = .ok found →
      ((s.findAllBy field v).cursor w).1 = .ok narrowed → ∀ item ∈ narrowed, item ∈ found := by
  intro hclaim
  have hfinds : ofThirtySix.Finds peopleWorld people [] :=
    ⟨rfl, rfl, rfl, rfl, rfl, Collection.accepts_of_matching rfl⟩
  have hlooksUp : (ofThirtySix.findAllBy "age" (.integer 85)).Finds peopleWorld people [] :=
    ⟨rfl, rfl, rfl, rfl, rfl, Collection.accepts_of_matching rfl⟩
  have hfound : (ofThirtySix.cursor peopleWorld).1 =
      .ok [.ok [("_id", .int64 1), ("years", .int64 36)], .ok [("_id", .int64 3), ("years", .int64 36)]] :=
    (hfinds.cursor_of_unsliced rfl rfl ⟨rfl, rfl⟩ (unsorted_sortsConsistently _ rfl)).trans rfl
  have hnarrowed : ((ofThirtySix.findAllBy "age" (.integer 85)).cursor peopleWorld).1 =
      .ok [.ok [("_id", .int64 2), ("years", .int64 85)]] :=
    (hlooksUp.cursor_of_unsliced rfl rfl ⟨rfl, rfl⟩ (unsorted_sortsConsistently _ rfl)).trans rfl
  have hmember := hclaim _ _ _ _ people _ _ rfl ⟨rfl, rfl⟩ hfound hnarrowed _ List.mem_cons_self
  simp at hmember

end Scope

end DocQuery
