import DocQuery.Proofs.Entries.Writing
import DocQuery.Proofs.Properties.RoundTrip

/-!
# Records that are saved again as they were

A loaded record has the attributes of the one that was saved, if each name is found again by its field. Its values may be
others, but they are stored as the first ones were, so saving it again writes the same document, field by field and in
the same order.
-/

namespace DocQuery.Properties

variable {ps : Properties} {a : Attributes}

theorem toStore_declared (hnames : ps.names.Nodup) {p : Property} (hp : p ∈ ps.declared) (v : Value) :
    ps.toStore p.name v = p.type.converter.toStore v :=
  toStore_of_type (by rw [type?, get?_declared hnames hp, Option.map_some]) v

theorem toStore_undeclared {name : String} (hget : ps.get? name = none) (v : Value) : ps.toStore name v = v.toStored := by
  simp [toStore, type?, hget]

/-- A record is dumped as one whose values are stored alike. -/
theorem dump_map (hnames : ps.names.Nodup) {f : String × Value → Value}
    (halike : ∀ e ∈ a, ps.toStore e.1 (f e) = ps.toStore e.1 e.2) : ps.dump (a.map fun e => (e.1, f e)) = ps.dump a := by
  have hfields : ps.dumpFields (a.map fun e => (e.1, f e)) = ps.dumpFields a := by
    rw [dumpFields, dumpFields]
    congr 1
    · refine List.filterMap_congr fun p hp => ?_
      rw [dumpProperty, dumpProperty, Entries.get?_map]
      cases hvalue : a.get? p.name with
      | none => rfl
      | some v =>
        have hstored := halike (p.name, v) (Entries.mem_of_get? hvalue)
        rw [toStore_declared hnames hp, toStore_declared hnames hp] at hstored
        simp only [Option.map_some, hstored]
    · rw [undeclared, List.filter_map, Entries.mapValues, List.map_map]
      refine List.map_congr_left fun e he => ?_
      obtain ⟨hentry, hget⟩ := mem_undeclared.mp he
      have hstored := halike e hentry
      rw [toStore_undeclared hget, toStore_undeclared hget] at hstored
      exact Prod.ext rfl hstored
  rw [dump, hfields, dump]

theorem LeadsBack.dump_load_dump (hback : ps.LeadsBack a.keys) (hnames : ps.names.Nodup) (hsorted : a.IsSorted)
    (hagain : ∀ e ∈ a, (ps.converter e.1).resave ((ps.converter e.1).toStore e.2) = (ps.converter e.1).toStore e.2) :
    ps.dump (ps.load (ps.dump a)) = ps.dump a := by
  rw [hback.load_dump hnames hsorted]
  refine dump_map hnames fun e he => ?_
  rw [toStore_eq, toStore_eq]
  exact hagain e he

/-- What a property stores of a value is stored again as it was, if no time that is stored as a time is past the
calendar, and so is the whole record. -/
theorem saved_again_unchanged :
    (∀ (type : PropertyType) (v : Value), v.Native → type.converter.Unambiguous v →
      (type.converter.toStore (type.converter.fromStore (type.converter.toStore v)) = type.converter.toStore v ↔
        ∀ t ∈ type.converter.storedTimes v, ¬ t.IsBeyond)) ∧
    (∀ (declarations : List Property) (ps : Properties) (a : Attributes), ofList declarations = ps →
      ps.LeadsBack a.keys → a.IsSorted →
      (∀ e ∈ a, e.2.Native ∧ (ps.converter e.1).Unambiguous e.2 ∧
        ∀ t ∈ (ps.converter e.1).storedTimes e.2, ¬ t.IsBeyond) →
      ps.dump (ps.load (ps.dump a)) = ps.dump a) := by
  constructor
  · exact fun type v hv hclear => type.converter.resave_toStore_iff hv hclear
  · rintro declarations _ a rfl hback hsorted hkept
    refine hback.dump_load_dump (nodup_names_ofList declarations) hsorted fun e he => ?_
    obtain ⟨hv, hclear, htimes⟩ := hkept e he
    exact (Converter.resave_toStore_iff _ hv hclear).mpr htimes

/-! ### Visits that are noted in texts -/

def visitDeclarations : List Property := [⟨"age", .integer, "years"⟩, ⟨"seen", .map (.array .date), "visits"⟩]

/-- A date with blanks around it, no date, and a date instead of a list of them. -/
def visits : Value := .map [("bath", .array [.string " 2009-1-3 ", .string " soon"]), ("york", .string " 2009-1-3 ")]

def visitor : Attributes := [("age", .string " 36 "), ("note", .symbol " regular "), ("seen", visits)]

theorem native_visits : visits.Native := by
  refine .map (by decide +kernel) ?_
  simp only [List.forall_mem_cons, List.not_mem_nil, false_imp_iff, implies_true, and_true]
  refine ⟨.array ?_, .string _⟩
  simp only [List.forall_mem_cons, List.not_mem_nil, false_imp_iff, implies_true, and_true]
  exact ⟨.string _, .string _⟩

theorem unambiguous_visits : Converter.Unambiguous (.map (.array .date)) visits := by
  simp [visits, Converter.Unambiguous]

theorem storedTimes_visits : Converter.storedTimes (.map (.array .date)) visits = [] := by
  simp [visits, Converter.storedTimes, Value.times]

theorem visitor_saved_again :
    let ps := ofList visitDeclarations
    let dates : Converter := .map (.array .date)
    dates.toStore (dates.fromStore (dates.toStore visits)) = dates.toStore visits ∧
      ps.dump (ps.load (ps.dump visitor)) = ps.dump visitor := by
  refine ⟨?_, saved_again_unchanged.2 visitDeclarations _ visitor rfl ?_ (by decide +kernel) ?_⟩
  · exact (saved_again_unchanged.1 (.map (.array .date)) visits native_visits unambiguous_visits).mpr
      (by simp [PropertyType.converter, storedTimes_visits])
  · unfold LeadsBack
    decide +kernel
  · have hage : (ofList visitDeclarations).converter "age" = .integer := by decide +kernel
    have hnote : (ofList visitDeclarations).converter "note" = .generic := by decide +kernel
    have hseen : (ofList visitDeclarations).converter "seen" = .map (.array .date) := by decide +kernel
    simp only [visitor, List.forall_mem_cons, List.not_mem_nil, false_imp_iff, implies_true, and_true, hage, hnote, hseen,
      storedTimes_visits, Converter.storedTimes, Value.times]
    exact ⟨⟨.string _, trivial⟩, ⟨.symbol _, trivial⟩, ⟨native_visits, unambiguous_visits⟩⟩

/-- A leap second after the last second of the calendar. -/
def pastCalendar : Time := { Time.last with nanos := 1500000000, nanos_lt := by omega }

def agedDeclarations : List Property := [⟨"age", .string, "years"⟩]

/-- The second value takes the place of the first one, as it has the name of the first one's field. -/
def twoAges : Attributes := [("age", .string "36"), ("years", .integer 36)]

/-- What is saved may be saved again as something else: a time past the calendar, and a value whose name is that of
another property's field. -/
theorem saving_again_changes :
    (¬ ∀ (type : PropertyType) (v : Value), v.Native → type.converter.Unambiguous v →
      type.converter.toStore (type.converter.fromStore (type.converter.toStore v)) = type.converter.toStore v) ∧
    (¬ ∀ (declarations : List Property) (ps : Properties) (a : Attributes), ofList declarations = ps → a.IsSorted →
      (∀ e ∈ a, e.2.Native ∧ (ps.converter e.1).Unambiguous e.2 ∧
        ∀ t ∈ (ps.converter e.1).storedTimes e.2, ¬ t.IsBeyond) →
      ps.dump (ps.load (ps.dump a)) = ps.dump a) := by
  constructor
  · intro hkept
    have hagain := hkept .time (.time pastCalendar) (.time _) trivial
    have htimes := (Converter.resave_toStore_iff .time (.time pastCalendar) trivial).mp hagain
    exact htimes pastCalendar (List.mem_singleton_self _) (by decide)
  · intro hkept
    have hage : (ofList agedDeclarations).converter "age" = .string := by decide +kernel
    have hyears : (ofList agedDeclarations).converter "years" = .generic := by decide +kernel
    have hagain := hkept agedDeclarations _ twoAges rfl (by decide +kernel) (by
      simp only [twoAges, List.forall_mem_cons, List.not_mem_nil, false_imp_iff, implies_true, and_true, hage, hyears,
        Converter.storedTimes, Value.times]
      exact ⟨⟨.string _, trivial⟩, ⟨.integer _, trivial⟩⟩)
    cases congrArg (Entries.get? "years") hagain

end DocQuery.Properties
