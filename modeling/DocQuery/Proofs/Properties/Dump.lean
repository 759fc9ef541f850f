import Mathlib.Data.List.Nodup
import DocQuery.Proofs.Entries
import DocQuery.Properties

/-!
# Names of properties and of their fields

Declaring keeps the logical names of the properties distinct; their stored names are distinct if the declarations make
them so. A logical name then leads to one field and a field to one logical name, also where a property is stored under
the logical name of another, as long as no other attribute is named like a stored property. Dumping such a record
writes one field for every attribute and nothing else.
-/

namespace DocQuery.Properties

variable {ps : Properties}

def names (ps : Properties) : List String := ps.declared.map (·.name)

def storedNames (ps : Properties) : List String := ps.declared.map (·.storedAs)

/-! ### Declaring -/

theorem names_declareIn (new : Property) (properties : List Property) :
    (declareIn new properties).map (·.name) =
      if new.name ∈ properties.map (·.name) then properties.map (·.name) else properties.map (·.name) ++ [new.name] := by
  induction properties with
  | nil => rfl
  | cons p rest ih =>
    rw [declareIn]
    by_cases hp : p.name = new.name
    · simp [hp]
    · rw [if_neg hp, List.map_cons, ih, List.map_cons]
      by_cases hnew : new.name ∈ rest.map (·.name)
      · rw [if_pos hnew, if_pos (List.mem_cons_of_mem _ hnew)]
      · rw [if_neg hnew, if_neg (List.not_mem_cons_of_ne_of_not_mem (Ne.symm hp) hnew), List.cons_append]

theorem nodup_names_declare (hnames : ps.names.Nodup) (new : Property) : (ps.declare new).names.Nodup := by
  rw [names, declare, names_declareIn]
  split
  · exact hnames
  · next hnew =>
    rw [← List.concat_eq_append]
    exact hnames.concat hnew

theorem nodup_names_ofList (declarations : List Property) : (ofList declarations).names.Nodup := by
  have hfold : ∀ ps : Properties, ps.names.Nodup → (declarations.foldl declare ps).names.Nodup := by
    induction declarations with
    | nil => exact fun ps hps => hps
    | cons new rest ih => exact fun ps hps => ih _ (nodup_names_declare hps new)
  exact hfold initial (List.nodup_singleton _)

/-! ### Looking up -/

private theorem find?_of_mem {α : Type} {f : α → String} {l : List α} (hkeys : (l.map f).Nodup) {x : α} (hx : x ∈ l) :
    l.find? (fun y => f y = f x) = some x := by
  have hfound : (l.find? (fun y => f y = f x)).isSome := List.find?_isSome.mpr ⟨x, hx, by simp⟩
  obtain ⟨y, hy⟩ := Option.isSome_iff_exists.mp hfound
  have hkey : f y = f x := by simpa using List.find?_some hy
  rw [hy, List.inj_on_of_nodup_map hkeys (List.mem_of_find?_eq_some hy) hx hkey]

/-- No two properties share a name or a field. -/
structure Distinct (ps : Properties) : Prop where
  names : ps.names.Nodup
  storedNames : ps.storedNames.Nodup

theorem distinct_ofList {declarations : List Property} (hstored : (ofList declarations).storedNames.Nodup) :
    (ofList declarations).Distinct := ⟨nodup_names_ofList declarations, hstored⟩

theorem get?_declared (hnames : ps.names.Nodup) {p : Property} (hp : p ∈ ps.declared) : ps.get? p.name = some p :=
  find?_of_mem hnames hp

theorem Distinct.ofField? (hps : ps.Distinct) {p : Property} (hp : p ∈ ps.declared) : ps.ofField? p.storedAs = some p :=
  find?_of_mem hps.storedNames hp

theorem mem_of_get? {name : String} {p : Property} (hget : ps.get? name = some p) : p ∈ ps.declared ∧ p.name = name :=
  ⟨List.mem_of_find?_eq_some hget, by simpa using List.find?_some hget⟩

theorem mem_of_ofField? {field : String} {p : Property} (hfield : ps.ofField? field = some p) :
    p ∈ ps.declared ∧ p.storedAs = field :=
  ⟨List.mem_of_find?_eq_some hfield, by simpa using List.find?_some hfield⟩

theorem get?_eq_none_iff {name : String} : ps.get? name = none ↔ name ∉ ps.names := by
  simp [get?, names, List.find?_eq_none]

theorem ofField?_eq_none_iff {field : String} : ps.ofField? field = none ↔ field ∉ ps.storedNames := by
  simp [ofField?, storedNames, List.find?_eq_none]

/-- The conversion of the values that are kept under a name. -/
def converter (ps : Properties) (name : String) : Converter :=
  ((ps.type? name).map PropertyType.converter).getD .generic

theorem toStore_eq (ps : Properties) (name : String) (v : Value) : ps.toStore name v = (ps.converter name).toStore v := by
  rw [toStore, converter]
  cases ps.type? name <;> rfl

theorem toStore_of_type {name : String} {type : PropertyType} (htype : ps.type? name = some type) (v : Value) :
    ps.toStore name v = type.converter.toStore v := by
  rw [toStore, htype]

/-! ### From one name to the other -/

/-- The logical name of a stored field; a field that holds no property stands for itself. -/
def logicalName (ps : Properties) (field : String) : String := ((ps.ofField? field).map (·.name)).getD field

/-- What an attribute becomes when a record is dumped. -/
def dumpField (ps : Properties) (e : String × Value) : String × StoreValue := (ps.resolve e.1, ps.toStore e.1 e.2)

theorem dumpField_of_get? {e : String × Value} {p : Property} (hget : ps.get? e.1 = some p) :
    ps.dumpField e = (p.storedAs, p.type.converter.toStore e.2) := by
  simp [dumpField, resolve, toStore, type?, hget]

theorem dumpField_of_undeclared {e : String × Value} (hget : ps.get? e.1 = none) :
    ps.dumpField e = (e.1, e.2.toStored) := by
  simp [dumpField, resolve, toStore, type?, hget]

/-- No name that is not a property's is the name of a stored property. -/
def KeepsApart (ps : Properties) (names : List String) : Prop := ∀ name ∈ names, name ∉ ps.names → name ∉ ps.storedNames

theorem Distinct.logicalName_resolve (hps : ps.Distinct) {name : String}
    (hapart : name ∉ ps.names → name ∉ ps.storedNames) : ps.logicalName (ps.resolve name) = name := by
  cases hget : ps.get? name with
  | some p =>
    obtain ⟨hp, rfl⟩ := mem_of_get? hget
    simp [logicalName, resolve, hget, hps.ofField? hp]
  | none =>
    have hfield := ofField?_eq_none_iff.mpr (hapart (get?_eq_none_iff.mp hget))
    simp [logicalName, resolve, hget, hfield]

theorem resolve_logicalName (hnames : ps.names.Nodup) {field : String}
    (hapart : field ∉ ps.storedNames → field ∉ ps.names) : ps.resolve (ps.logicalName field) = field := by
  cases hfield : ps.ofField? field with
  | some p =>
    obtain ⟨hp, rfl⟩ := mem_of_ofField? hfield
    simp [logicalName, resolve, hfield, get?_declared hnames hp]
  | none =>
    have hget := get?_eq_none_iff.mpr (hapart (ofField?_eq_none_iff.mp hfield))
    simp [logicalName, resolve, hfield, hget]

/-- Each of the names is found again by its field. -/
def LeadsBack (ps : Properties) (names : List String) : Prop := ∀ name ∈ names, ps.logicalName (ps.resolve name) = name

theorem Distinct.leadsBack (hps : ps.Distinct) {names : List String} (hapart : ps.KeepsApart names) : ps.LeadsBack names :=
  fun name hname => hps.logicalName_resolve (hapart name hname)

theorem LeadsBack.nodup_resolve {names : List String} (hback : ps.LeadsBack names) (hnames : names.Nodup) :
    (names.map ps.resolve).Nodup := by
  refine hnames.map_on fun name hname other hother heq => ?_
  rw [← hback name hname, heq, hback other hother]

/-! ### Dumping -/

/-- The attributes of a record in the order in which it is dumped. -/
def arranged (ps : Properties) (a : Attributes) : Attributes :=
  ps.declared.filterMap (fun p => (a.get? p.name).map fun v => (p.name, v)) ++ ps.undeclared a

theorem mem_undeclared {a : Attributes} {e : String × Value} : e ∈ ps.undeclared a ↔ e ∈ a ∧ ps.get? e.1 = none := by
  simp [undeclared]

theorem dumpFields_eq_map (hnames : ps.names.Nodup) (a : Attributes) :
    ps.dumpFields a = (ps.arranged a).map ps.dumpField := by
  rw [dumpFields, arranged, List.map_append, List.map_filterMap]
  congr 1
  · refine List.filterMap_congr fun p hp => ?_
    cases hvalue : a.get? p.name with
    | none => simp [dumpProperty, hvalue]
    | some v => simp [dumpProperty, hvalue, dumpField_of_get? (e := (p.name, v)) (get?_declared hnames hp)]
  · refine List.map_congr_left fun e he => ?_
    rw [dumpField_of_undeclared (mem_undeclared.mp he).2]

private theorem nodup_keys_arranged (hnames : ps.names.Nodup) {a : Attributes} (hkeys : a.keys.Nodup) :
    (ps.arranged a).keys.Nodup := by
  rw [arranged, Entries.keys_append]
  have hdeclared : (ps.declared.filterMap (fun p => (a.get? p.name).map fun v => (p.name, v))).map Prod.fst =
      (ps.declared.filter fun p => (a.get? p.name).isSome).map (·.name) := by
    induction ps.declared with
    | nil => rfl
    | cons p rest ih => cases hvalue : a.get? p.name <;> simp_all
  refine List.nodup_append.mpr ⟨?_, hkeys.sublist (List.filter_sublist.map _), ?_⟩
  · rw [Entries.keys, hdeclared]
    exact hnames.sublist (List.filter_sublist.map _)
  · rintro name hname _ hother rfl
    rw [Entries.keys, hdeclared] at hname
    obtain ⟨p, hp, rfl⟩ := List.mem_map.mp hname
    obtain ⟨e, he, heq⟩ := List.mem_map.mp hother
    have hget := (mem_undeclared.mp he).2
    rw [heq, get?_declared hnames (List.mem_of_mem_filter hp)] at hget
    cases hget

theorem arranged_perm (hnames : ps.names.Nodup) {a : Attributes} (hkeys : a.keys.Nodup) :
    (ps.arranged a).Perm a := by
  -- Neither list has an entry twice, so having the same entries is enough.
  refine (List.perm_ext_iff_of_nodup (List.Nodup.of_map _ (nodup_keys_arranged hnames hkeys))
    (List.Nodup.of_map _ hkeys)).mpr fun e => ?_
  rw [arranged, List.mem_append, List.mem_filterMap, mem_undeclared]
  constructor
  · rintro (⟨p, _, hvalue⟩ | ⟨he, _⟩)
    · obtain ⟨v, hv, rfl⟩ := Option.map_eq_some_iff.mp hvalue
      exact Entries.mem_of_get? hv
    · exact he
  · intro he
    cases hget : ps.get? e.1 with
    | none => exact .inr ⟨he, rfl⟩
    | some p =>
      obtain ⟨hp, hname⟩ := mem_of_get? hget
      refine .inl ⟨p, hp, ?_⟩
      rw [hname, Entries.get?_of_mem hkeys he]
      rfl

section Apart

variable {a : Attributes}

theorem LeadsBack.nodup_keys_map_dumpField (hback : ps.LeadsBack a.keys) (hkeys : a.keys.Nodup) :
    (Entries.keys (a.map ps.dumpField)).Nodup := by
  have hfields : Entries.keys (a.map ps.dumpField) = a.keys.map ps.resolve := by
    simp [Entries.keys, dumpField, Function.comp_def]
  rw [hfields]
  exact hback.nodup_resolve hkeys

/-- Dumping writes one field for every attribute. -/
theorem LeadsBack.dump_perm (hback : ps.LeadsBack a.keys) (hnames : ps.names.Nodup) (hkeys : a.keys.Nodup) :
    (ps.dump a).Perm (a.map ps.dumpField) := by
  have hperm : (ps.dumpFields a).Perm (a.map ps.dumpField) := by
    rw [dumpFields_eq_map hnames]
    exact (arranged_perm hnames hkeys).map _
  have hnodup := (Entries.keys_perm hperm).nodup_iff.mpr (hback.nodup_keys_map_dumpField hkeys)
  rw [dump, Entries.ofList_of_nodup hnodup]
  exact hperm

theorem LeadsBack.get?_dump (hback : ps.LeadsBack a.keys) (hnames : ps.names.Nodup) (hkeys : a.keys.Nodup) {name : String}
    {v : Value} (hvalue : a.get? name = some v) : (ps.dump a).get? (ps.resolve name) = some (ps.toStore name v) := by
  have hperm := hback.dump_perm hnames hkeys
  refine Entries.get?_of_mem ?_ (hperm.mem_iff.mpr (List.mem_map_of_mem (Entries.mem_of_get? hvalue)))
  exact (Entries.keys_perm hperm).nodup_iff.mpr (hback.nodup_keys_map_dumpField hkeys)

theorem Distinct.dump_perm (hps : ps.Distinct) (hkeys : a.keys.Nodup) (hapart : ps.KeepsApart a.keys) :
    (ps.dump a).Perm (a.map ps.dumpField) := (hps.leadsBack hapart).dump_perm hps.names hkeys

theorem Distinct.get?_dump (hps : ps.Distinct) (hkeys : a.keys.Nodup) (hapart : ps.KeepsApart a.keys) {name : String}
    {v : Value} (hvalue : a.get? name = some v) : (ps.dump a).get? (ps.resolve name) = some (ps.toStore name v) :=
  (hps.leadsBack hapart).get?_dump hps.names hkeys hvalue

end Apart

end DocQuery.Properties
