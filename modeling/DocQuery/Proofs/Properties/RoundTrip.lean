import DocQuery.Proofs.Converter.Resaving
import DocQuery.Proofs.Converter.RoundTrip
import DocQuery.Proofs.Properties.Dump

/-!
# Records and documents come back

Loading a dumped record gives the record and dumping a loaded document gives the document, its fields perhaps in
another order. Names come back because a property and its field are each found from the other, and values because each
fits the property that it belongs to. Neither way loses, merges or renames an entry: what comes out has one entry for
each one that goes in.
-/

namespace DocQuery.Properties

variable {ps : Properties} {a : Attributes}

/-- A value that comes back from the store when it is kept under the name: for a property, one of its type. -/
def Fits (ps : Properties) (name : String) (v : Value) : Prop :=
  match ps.get? name with
  | some p => p.type.WellTyped v
  | none => Value.ofStored v.toStored = v

/-- A stored value that is the image of one that comes back. -/
def FitsField (ps : Properties) (field : String) (stored : StoreValue) : Prop :=
  match ps.ofField? field with
  | some p => ∃ v, p.type.WellTyped v ∧ stored = p.type.converter.toStore v
  | none => ∃ v : Value, Value.ofStored v.toStored = v ∧ stored = v.toStored

/-- No field that holds no property is named like one. -/
def KeepsFieldsApart (ps : Properties) (fields : List String) : Prop :=
  ∀ field ∈ fields, field ∉ ps.storedNames → field ∉ ps.names

/-! ### One entry -/

theorem loadField_fst (field : String) (stored : StoreValue) :
    (ps.loadField field stored).1 = ps.logicalName field := by
  unfold loadField logicalName
  cases ps.ofField? field <;> rfl

/-- The conversion of the values of a stored field. -/
def fieldConverter (ps : Properties) (field : String) : Converter :=
  ((ps.ofField? field).map fun p => p.type.converter).getD .generic

theorem loadField_snd (field : String) (stored : StoreValue) :
    (ps.loadField field stored).2 = (ps.fieldConverter field).fromStore stored := by
  unfold loadField fieldConverter
  cases ps.ofField? field <;> rfl

theorem converter_logicalName (hnames : ps.names.Nodup) {field : String}
    (hapart : field ∉ ps.storedNames → field ∉ ps.names) :
    ps.converter (ps.logicalName field) = ps.fieldConverter field := by
  cases hfield : ps.ofField? field with
  | some p =>
    have hp := (mem_of_ofField? hfield).1
    simp [logicalName, fieldConverter, converter, type?, hfield, get?_declared hnames hp]
  | none =>
    have hget := get?_eq_none_iff.mpr (hapart (ofField?_eq_none_iff.mp hfield))
    simp [logicalName, fieldConverter, converter, type?, hfield, hget]

theorem dumpField_loadField (hnames : ps.names.Nodup) {f : String × StoreValue}
    (hapart : f.1 ∉ ps.storedNames → f.1 ∉ ps.names) :
    ps.dumpField (ps.loadField f.1 f.2) = (f.1, (ps.fieldConverter f.1).resave f.2) := by
  rw [dumpField, loadField_fst, loadField_snd, toStore_eq, resolve_logicalName hnames hapart,
    converter_logicalName hnames hapart, Converter.resave]

theorem fromStore_toStore_of_fits {name : String} {v : Value} (hfits : ps.Fits name v) :
    (ps.converter name).fromStore ((ps.converter name).toStore v) = v := by
  cases hget : ps.get? name with
  | some p =>
    simp only [Fits, hget] at hfits
    simp only [converter, type?, hget, Option.map_some, Option.getD_some, PropertyType.fromStore_toStore hfits]
  | none =>
    simp only [Fits, hget] at hfits
    simp only [converter, type?, hget, Option.map_none, Option.getD_none, Converter.toStore, Converter.fromStore, hfits]

theorem resave_of_fitsField {f : String × StoreValue} (hfits : ps.FitsField f.1 f.2) :
    (ps.fieldConverter f.1).resave f.2 = f.2 := by
  obtain ⟨field, stored⟩ := f
  cases hfield : ps.ofField? field with
  | some p =>
    simp only [FitsField, hfield] at hfits
    obtain ⟨v, hv, rfl⟩ := hfits
    simp only [fieldConverter, hfield, Option.map_some, Option.getD_some, Converter.resave,
      PropertyType.fromStore_toStore hv]
  | none =>
    simp only [FitsField, hfield] at hfits
    obtain ⟨v, hv, rfl⟩ := hfits
    simp only [fieldConverter, hfield, Option.map_none, Option.getD_none, Converter.resave, Converter.toStore,
      Converter.fromStore, hv]

/-! ### Whole records and documents -/

theorem keys_map_loadField (d : Document) :
    Entries.keys (d.map fun f => ps.loadField f.1 f.2) = d.keys.map ps.logicalName := by
  simp [Entries.keys, Function.comp_def, loadField_fst]

/-- Loading makes one attribute of every field. -/
theorem load_perm (hnames : ps.names.Nodup) {d : Document} (hkeys : d.keys.Nodup) (hapart : ps.KeepsFieldsApart d.keys) :
    (ps.load d).Perm (d.map fun f => ps.loadField f.1 f.2) := by
  refine Entries.sorted_perm ?_
  rw [keys_map_loadField]
  refine hkeys.map_on fun field hfield other hother heq => ?_
  rw [← resolve_logicalName hnames (hapart field hfield), heq, resolve_logicalName hnames (hapart other hother)]

theorem Distinct.load_perm (hps : ps.Distinct) {d : Document} (hkeys : d.keys.Nodup)
    (hapart : ps.KeepsFieldsApart d.keys) : (ps.load d).Perm (d.map fun f => ps.loadField f.1 f.2) :=
  Properties.load_perm hps.names hkeys hapart

theorem LeadsBack.keepsFieldsApart {names : List String} (hback : ps.LeadsBack names) :
    ps.KeepsFieldsApart (names.map ps.resolve) := by
  intro field hfield hfree hnamed
  obtain ⟨name, hname, rfl⟩ := List.mem_map.mp hfield
  -- The field holds no property, so it stands for itself and for the attribute, which is no property either.
  have hself : ps.resolve name = name := by
    have hlogical := hback name hname
    rwa [logicalName, ofField?_eq_none_iff.mpr hfree] at hlogical
  cases hget : ps.get? name with
  | none =>
    rw [hself] at hnamed
    exact get?_eq_none_iff.mp hget hnamed
  | some p =>
    have hstored : ps.resolve name = p.storedAs := by rw [resolve, hget, Option.map_some, Option.getD_some]
    rw [hstored] at hfree
    exact hfree (List.mem_map_of_mem (mem_of_get? hget).1)

/-- Loading a dumped record reads each of its values back. -/
theorem LeadsBack.load_dump (hback : ps.LeadsBack a.keys) (hnames : ps.names.Nodup) (hsorted : a.IsSorted) :
    ps.load (ps.dump a) = a.map fun e => (e.1, (ps.converter e.1).fromStore ((ps.converter e.1).toStore e.2)) := by
  have hapart := hback.keepsFieldsApart
  have hfields : (a.map ps.dumpField).map (fun f => ps.loadField f.1 f.2) =
      a.map fun e => (e.1, (ps.converter e.1).fromStore ((ps.converter e.1).toStore e.2)) := by
    rw [List.map_map]
    refine List.map_congr_left fun e he => ?_
    have hkey := Entries.mem_keys_of_mem he
    have hname := hback e.1 hkey
    have hconverter := converter_logicalName hnames (hapart (ps.resolve e.1) (List.mem_map_of_mem hkey))
    rw [hname] at hconverter
    refine Prod.ext ?_ ?_
    · exact (loadField_fst _ _).trans hname
    · rw [Function.comp_apply, loadField_snd, dumpField, ← hconverter, toStore_eq]
  have hperm := (hback.dump_perm hnames hsorted.nodup_keys).map fun f => ps.loadField f.1 f.2
  rw [hfields] at hperm
  exact Entries.sorted_of_perm (hsorted.map fun _ => rfl) hperm

theorem Distinct.load_dump (hps : ps.Distinct) (hsorted : a.IsSorted) (hapart : ps.KeepsApart a.keys)
    (hfits : ∀ e ∈ a, ps.Fits e.1 e.2) : ps.load (ps.dump a) = a := by
  rw [(hps.leadsBack hapart).load_dump hps.names hsorted]
  have hsame : ∀ e ∈ a, (e.1, (ps.converter e.1).fromStore ((ps.converter e.1).toStore e.2)) = e := fun e he => by
    rw [fromStore_toStore_of_fits (hfits e he)]
  rw [List.map_congr_left hsame, List.map_id']

/-- Saving a loaded document again saves each of its fields again. -/
theorem dump_load_perm (hnames : ps.names.Nodup) {d : Document} (hkeys : d.keys.Nodup)
    (hapart : ps.KeepsFieldsApart d.keys) :
    (ps.dump (ps.load d)).Perm (d.map fun f => (f.1, (ps.fieldConverter f.1).resave f.2)) := by
  have hload := load_perm hnames hkeys hapart
  have hback : ps.LeadsBack (ps.load d).keys := by
    intro name hname
    have hloaded := (Entries.keys_perm hload).mem_iff.mp hname
    rw [keys_map_loadField] at hloaded
    obtain ⟨field, hfield, rfl⟩ := List.mem_map.mp hloaded
    rw [resolve_logicalName hnames (hapart field hfield)]
  have hfields : (d.map fun f => ps.loadField f.1 f.2).map ps.dumpField =
      d.map fun f => (f.1, (ps.fieldConverter f.1).resave f.2) := by
    rw [List.map_map]
    exact List.map_congr_left fun f hf => dumpField_loadField hnames (hapart f.1 (Entries.mem_keys_of_mem hf))
  rw [← hfields]
  exact (hback.dump_perm hnames (Entries.isSorted_sorted _).nodup_keys).trans (hload.map ps.dumpField)

theorem Distinct.dump_load_perm (hps : ps.Distinct) {d : Document} (hkeys : d.keys.Nodup)
    (hapart : ps.KeepsFieldsApart d.keys) (hfits : ∀ f ∈ d, ps.FitsField f.1 f.2) : (ps.dump (ps.load d)).Perm d := by
  have hback : (d.map fun f => (f.1, (ps.fieldConverter f.1).resave f.2)) = d := by
    have hsame : ∀ f ∈ d, (f.1, (ps.fieldConverter f.1).resave f.2) = f := fun f hf => by
      rw [resave_of_fitsField (hfits f hf)]
    rw [List.map_congr_left hsame, List.map_id']
  exact (Properties.dump_load_perm hps.names hkeys hapart).trans (List.Perm.of_eq hback)

/-- Records and documents go through each other and come back, whatever the declarations name the fields, if no field
is named twice. -/
theorem records_come_back {declarations : List Property} {ps : Properties} (hdeclared : ofList declarations = ps)
    (hstored : ps.storedNames.Nodup) :
    (∀ a : Attributes, a.IsSorted → ps.KeepsApart a.keys → (∀ e ∈ a, ps.Fits e.1 e.2) →
      ps.load (ps.dump a) = a ∧ (ps.dump a).Perm (a.map ps.dumpField)) ∧
    (∀ d : Document, d.keys.Nodup → ps.KeepsFieldsApart d.keys → (∀ f ∈ d, ps.FitsField f.1 f.2) →
      (ps.dump (ps.load d)).Perm d ∧ (ps.load d).Perm (d.map fun f => ps.loadField f.1 f.2)) := by
  subst hdeclared
  have hps := distinct_ofList hstored
  exact ⟨fun a hsorted hapart hfits => ⟨hps.load_dump hsorted hapart hfits, hps.dump_perm hsorted.nodup_keys hapart⟩,
    fun d hkeys hapart hfits => ⟨hps.dump_load_perm hkeys hapart hfits, hps.load_perm hkeys hapart⟩⟩

/-! ### Properties stored under each other's names -/

def tripDeclarations : List Property :=
  [⟨"from", .date, "to"⟩, ⟨"to", .date, "from"⟩, ⟨"key", .integer, "id"⟩]

def tripProperties : Properties := ofList tripDeclarations

def departure : Date := ⟨2009, 2, 3, by decide, by decide, by decide⟩

def arrival : Date := ⟨10001, 3, 7, by decide, by decide, by decide⟩

def trip : Attributes :=
  [("from", .date departure), ("id", .string "t1"), ("key", .integer 7), ("note", .array [.null]), ("to", .date arrival)]

def storedTrip : Document :=
  [("from", .string "+10001-03-07"), ("to", .string "2009-02-03"), ("_id", .string "t1"), ("id", .int64 7)]

theorem trip_fits : ∀ e ∈ trip, tripProperties.Fits e.1 e.2 := by
  simp only [trip, List.forall_mem_cons, List.not_mem_nil, false_imp_iff, implies_true, and_true]
  exact ⟨.date departure, .any (.string "t1"), .integer 7, rfl, .date arrival⟩

theorem storedTrip_fits : ∀ f ∈ storedTrip, tripProperties.FitsField f.1 f.2 := by
  simp only [storedTrip, List.forall_mem_cons, List.not_mem_nil, false_imp_iff, implies_true, and_true]
  exact ⟨⟨_, .date arrival, rfl⟩, ⟨_, .date departure, rfl⟩, ⟨_, .any (.string "t1"), rfl⟩, ⟨_, .integer 7, rfl⟩⟩

theorem trip_comes_back :
    tripProperties.dump trip = [("_id", .string "t1"), ("to", .string "2009-02-03"), ("from", .string "+10001-03-07"),
        ("id", .int64 7), ("note", .array [.null])] ∧
      tripProperties.load (tripProperties.dump trip) = trip ∧
      (tripProperties.dump (tripProperties.load storedTrip)).Perm storedTrip := by
  obtain ⟨hrecords, hdocuments⟩ := records_come_back (rfl : ofList tripDeclarations = tripProperties) (by decide +kernel)
  refine ⟨rfl, ?_, ?_⟩
  · exact (hrecords trip (by decide +kernel) (by unfold KeepsApart; decide +kernel) trip_fits).1
  · exact (hdocuments storedTrip (by decide +kernel) (by unfold KeepsFieldsApart; decide +kernel) storedTrip_fits).1

end DocQuery.Properties
