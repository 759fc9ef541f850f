import DocQuery.Proofs.Calendar.Chronology
import DocQuery.Proofs.Collection.SortedSearch
import DocQuery.Proofs.Properties.Dump
import DocQuery.Proofs.Query.Options
import DocQuery.Proofs.Selector.Comparators

/-!
# Dates and times in queries

A property of dates is stored as texts and one of times as milliseconds. Both are compared by the store as they lie in
the calendar, which makes conditions by order and sorts on dates chronological. Between the ends of the calendar a time
comes back at the start of its millisecond.
-/

namespace DocQuery

variable {ps : Properties} {name : String} {d e : Document} {x y : Date}

/-- A document has the text of a date, in a year of four digits, where a property of dates is stored. -/
def Properties.HasDate (ps : Properties) (name : String) (d : Document) (x : Date) : Prop :=
  x.HasPlainYear ∧ d.lookUp? (ps.resolve name) = some (ps.toStore name (.date x))

/-! ### Dates -/

theorem Properties.toStore_date (htype : ps.type? name = some .date) (x : Date) :
    ps.toStore name (.date x) = .string x.text :=
  toStore_of_type htype _

theorem Properties.compare?_date (htype : ps.type? name = some .date) (hx : x.HasPlainYear) (hy : y.HasPlainYear) :
    (ps.toStore name (.date x)).compare? (ps.toStore name (.date y)) = some (compare x.dayNumber y.dayNumber) := by
  rw [toStore_date htype, toStore_date htype]
  exact congrArg some (Date.compare_text hx hy)

theorem Query.selectorOf_byOrder (ps : Properties) (name : String) {c : Comparison} (hc : c ∈ Comparison.byOrder)
    (y : Date) : selectorOf ps [(.operator ⟨name, .known c⟩, .date y)] =
      .ok (c.selector (ps.resolve name) (ps.toStore name (.date y))) := by
  simp only [Comparison.byOrder, List.mem_cons, List.not_mem_nil, or_false] at hc
  rcases hc with rfl | rfl | rfl | rfl <;> rfl

theorem Document.satisfies_date (htype : ps.type? name = some .date) (hx : ps.HasDate name d x) (hy : y.HasPlainYear)
    {c : Comparison} (hc : c ∈ Comparison.byOrder) :
    d.satisfies (c.selector (ps.resolve name) (ps.toStore name (.date y))) =
      .ok (c.accepts (compare x.dayNumber y.dayNumber)) := by
  have hscalar : (ps.toStore name (.date x)).items? = none := by rw [Properties.toStore_date htype]; rfl
  rw [satisfies_selector, Selector.evaluate_order hc, hx.2, Selector.stands_of_scalar hscalar,
    Properties.compare?_date htype hx.1 hy, Option.any_some]

/-! ### Sorting by dates -/

theorem order_date (htype : ps.type? name = some .date) (hx : ps.HasDate name d x) (hy : ps.HasDate name e y)
    (direction : Direction) :
    (Query.resolvedKey ps ⟨name, direction⟩).order d e = direction.orient (compare x.dayNumber y.dayNumber) := by
  have hsort : StoreValue.sortOrder (d.lookUp? (ps.resolve name)) (e.lookUp? (ps.resolve name)) =
      compare x.dayNumber y.dayNumber := by
    rw [hx.2, hy.2, Properties.toStore_date htype, Properties.toStore_date htype]
    exact Date.compare_text hx.1 hy.1
  rw [← Retrieval.orient_eq_order, Query.resolvedKey, hsort]

/-- A document that may stand before another by a sort on dates has no later date, or no earlier one if the sort is
descending. -/
theorem isLE_of_precedes (htype : ps.type? name = some .date) {direction : Direction} {rest : List SortKey}
    (hprecedes : Retrieval.Precedes (Query.resolvedKey ps ⟨name, direction⟩ :: rest) d e) (hx : ps.HasDate name d x)
    (hy : ps.HasDate name e y) : (direction.orient (compare x.dayNumber y.dayNumber)).isLE = true := by
  rw [Retrieval.precedes_cons_iff, order_date htype hx hy] at hprecedes
  rcases hprecedes with hlt | ⟨heq, -⟩
  · rw [hlt]; rfl
  · rw [heq]; rfl

theorem Query.ofOptions_sorting {conditions : Option Conditions} {order : List SortTerm} {keys : List SortKey} {q : Query}
    (hcompile : compile ps ⟨conditions, [], order, none, none⟩ = .ok q) (horder : SortTerm.allSortKeys order = .ok keys) :
    Retrieval.ofOptions q.options = .ok { Retrieval.everything with sort := keys.map (resolvedKey ps) } := by
  obtain ⟨selector, keys', -, hkeys, rfl⟩ := compile_eq_ok hcompile
  cases horder.symm.trans hkeys
  exact Retrieval.ofOptions_optionsOf ps _ _

/-! ### Times -/

theorem Properties.compare?_time (htype : ps.type? name = some .time) (t u : Time) :
    (ps.toStore name (.time t)).compare? (ps.toStore name (.time u)) =
      some (compare (t.instant / 1000000) (u.instant / 1000000)) := by
  rw [toStore_of_type htype, toStore_of_type htype, ← Time.toInt_toMillis_eq_instant, ← Time.toInt_toMillis_eq_instant]
  rfl

theorem Properties.load_time (htype : ps.type? name = some .time) (t : Time) :
    PropertyType.time.converter.fromStore (ps.toStore name (.time t)) = .time (Time.ofMillis t.toMillis) := by
  rw [toStore_of_type htype]
  rfl

namespace Query

/-- Dates and times are stored in the order of the calendar. In years of four digits, conditions by order on a property
of dates are conditions on the calendar, and a search that is first sorted by it gives the dates in their order, or in
the opposite one. Times keep their order and do not tie when they are a millisecond apart; in no leap second, a time is
loaded as one that is less than a millisecond before it. -/
theorem calendar_order_kept (ps : Properties) :
    (∀ x y : Date, x.dayNumber < y.dayNumber ↔ x.IsBefore y) ∧
    (∀ name, ps.type? name = some .date →
      (∀ x y : Date, x.HasPlainYear → y.HasPlainYear →
        (ps.toStore name (.date x)).compare? (ps.toStore name (.date y)) = some (compare x.dayNumber y.dayNumber)) ∧
      (∀ d x y, ps.HasDate name d x → y.HasPlainYear → ∀ c ∈ Comparison.byOrder,
        ∃ selector, selectorOf ps [(.operator ⟨name, .known c⟩, .date y)] = .ok selector ∧
          d.satisfies selector = .ok (c.accepts (compare x.dayNumber y.dayNumber))) ∧
      (∀ (collection : Collection) conditions order direction rest q,
        SortTerm.allSortKeys order = .ok (⟨name, direction⟩ :: rest) →
        compile ps ⟨conditions, [], order, none, none⟩ = .ok q →
        Collection.Accepts q.selector collection.documents →
        (∀ d ∈ collection.documents, d.isMatch q.selector = true →
          Retrieval.Placed ((⟨name, direction⟩ :: rest).map (resolvedKey ps)) d) →
        ∃ found, (collection.find q.selector q.options).1 = .ok found ∧
          found.Perm (collection.documents.filter (·.isMatch q.selector)) ∧
          found.Pairwise fun d e => ∀ x y, ps.HasDate name d x → ps.HasDate name e y →
            (direction.orient (compare x.dayNumber y.dayNumber)).isLE = true)) ∧
    (∀ name, ps.type? name = some .time → ∀ t u : Time,
      (∃ o, (ps.toStore name (.time t)).compare? (ps.toStore name (.time u)) = some o ∧
        (t.instant ≤ u.instant → o.isLE = true) ∧ (t.instant + 1000000 ≤ u.instant → o = .lt)) ∧
      (t.IsPlain → ∃ loaded : Time,
        PropertyType.time.converter.fromStore (ps.toStore name (.time t)) = .time loaded ∧ loaded.IsPlain ∧
          loaded.instant ≤ t.instant ∧ t.instant < loaded.instant + 1000000)) := by
  refine ⟨fun x y => Date.dayNumber_lt_iff, fun name htype => ⟨fun x y hx hy => ?_, ?_, ?_⟩,
    fun name htype t u => ⟨?_, fun hplain => ?_⟩⟩
  · exact Properties.compare?_date htype hx hy
  · intro d x y hx hy c hc
    exact ⟨_, selectorOf_byOrder ps name hc y, Document.satisfies_date htype hx hy hc⟩
  · intro collection conditions order direction rest q horder hcompile haccepts hplaced
    refine ⟨_, Collection.find_of_sort (ofOptions_sorting hcompile horder) haccepts, Retrieval.sorted_perm _ _, ?_⟩
    have hordered := Retrieval.pairwise_precedes_sorted (List.forall_mem_filter.mpr hplaced)
    exact hordered.imp fun hprecedes x y hx hy => isLE_of_precedes htype hprecedes hx hy
  · refine ⟨_, Properties.compare?_time htype t u, fun hle => ?_, fun happart => ?_⟩
    · exact Std.isLE_compare.mpr (Int.ediv_le_ediv (by decide) hle)
    · rw [Int.compare_eq_lt]
      omega
  · obtain ⟨hloaded, hinstant⟩ := Time.instant_ofMillis_toMillis hplain
    refine ⟨_, Properties.load_time htype t, hloaded, ?_, ?_⟩
    · omega
    · omega

/-! ### A chronicle -/

def chronicleProperties : Properties := .ofList [⟨"day", .date, "on"⟩, ⟨"noted", .time, "noted"⟩]

def coronation : Date := ⟨987, 7, 3, by decide, by decide, by decide⟩

def battle : Date := ⟨1066, 10, 14, by decide, by decide, by decide⟩

/-- The later entry stands first, and one between them has no day. -/
def chronicle : Collection :=
  ⟨"chronicle", [[("on", .string "1066-10-14")], [("text", .null)], [("on", .string "0987-07-03")]], 0, 0⟩

/-- A microsecond before 1970. -/
def lastNote : Time := ⟨-1, 999999000, by decide, by decide⟩

theorem chronicle_kept :
    (chronicleProperties.toStore "day" (.date coronation)).compare? (chronicleProperties.toStore "day" (.date battle)) =
      some (compare coronation.dayNumber battle.dayNumber) ∧
    (∃ selector, selectorOf chronicleProperties [(.operator ⟨"day", .known .below⟩, .date battle)] = .ok selector ∧
      Document.satisfies [("on", .string "0987-07-03")] selector =
        .ok (Comparison.below.accepts (compare coronation.dayNumber battle.dayNumber))) ∧
    (∃ q found, compile chronicleProperties ⟨none, [], [.directed "day" .descending], none, none⟩ = .ok q ∧
      (chronicle.find q.selector q.options).1 = .ok found ∧
      found.Pairwise fun d e => ∀ x y, chronicleProperties.HasDate "day" d x → chronicleProperties.HasDate "day" e y →
        (Direction.descending.orient (compare x.dayNumber y.dayNumber)).isLE = true) ∧
    ∃ loaded : Time, PropertyType.time.converter.fromStore (chronicleProperties.toStore "noted" (.time lastNote)) =
      .time loaded ∧ loaded.instant ≤ lastNote.instant ∧ lastNote.instant < loaded.instant + 1000000 := by
  obtain ⟨-, hdates, htimes⟩ := calendar_order_kept chronicleProperties
  obtain ⟨hcompare, hconditions, hsorts⟩ := hdates "day" rfl
  have hday : chronicleProperties.HasDate "day" [("on", .string "0987-07-03")] coronation := by
    refine ⟨by decide, ?_⟩
    rw [Properties.toStore_date rfl]
    exact Document.lookUp?_field (by decide) _
  refine ⟨hcompare _ _ (by decide) (by decide), hconditions _ _ _ hday (by decide) .below (by decide), ?_, ?_⟩
  · have hcompile : compile chronicleProperties ⟨none, [], [.directed "day" .descending], none, none⟩ =
      .ok ⟨[], optionsOf chronicleProperties ⟨none, [], [.directed "day" .descending], none, none⟩
        [⟨"day", .descending⟩]⟩ := rfl
    have hplaced : ∀ d ∈ chronicle.documents,
      Retrieval.Placed ([⟨"day", .descending⟩].map (resolvedKey chronicleProperties)) d := by decide +kernel
    obtain ⟨found, hfound, -, hordered⟩ := hsorts chronicle none _ .descending [] _ rfl hcompile
      (fun d _ => ⟨true, rfl⟩) fun d hd _ => hplaced d hd
    exact ⟨_, found, hcompile, hfound, hordered⟩
  · obtain ⟨loaded, hloaded, -, hinstant⟩ := (htimes "noted" rfl lastNote lastNote).2 (by decide)
    exact ⟨loaded, hloaded, hinstant⟩

end Query

end DocQuery
