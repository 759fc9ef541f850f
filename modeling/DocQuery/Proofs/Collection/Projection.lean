import DocQuery.Collection.Basic
import DocQuery.Proofs.Entries.Writing
import DocQuery.Proofs.Query.Options

/-!
# Projections of what is found

The fields of a request are chosen last. The option that lists them leaves all other options as they are, wherever it
stands, so a request with it finds the documents that it finds without it, in their order, and gives a projection of each
of them. A projection consists of the identity and the listed fields, and what is projected on is read off the document by
name, so projecting again sees the fields that are left as they were.
-/

namespace DocQuery

namespace Retrieval

/-! ### Decoding -/

def withFields (names : List String) (r : Retrieval) : Retrieval := { r with fields := names }

private theorem name_of_ofName? {option : String} {o : QueryOption} (ho : QueryOption.ofName? option = some o) :
    o.name = option := by
  simpa using List.find?_some ho

/-- An option of another name is decoded the same way whatever fields are listed. -/
theorem set_withFields {option : String} (hoption : option ≠ QueryOption.fields.name) (r : Retrieval)
    (names : List String) (v : StoreValue) :
    (r.withFields names).set option v = (r.set option v).map (withFields names) := by
  rw [set, set]
  cases ho : QueryOption.ofName? option with
  | none => rfl
  | some o =>
    cases o with
    | skip => cases readCount option v <;> rfl
    | limit => cases readCount option v <;> rfl
    | fields => exact absurd (name_of_ofName? ho).symm hoption
    | sort => cases readSort v <;> rfl

theorem setAll_withFields {options : Document} (hoptions : QueryOption.fields.name ∉ options.keys) (r : Retrieval)
    (names : List String) : (r.withFields names).setAll options = (r.setAll options).map (withFields names) := by
  induction options generalizing r with
  | nil => rfl
  | cons option rest ih =>
    rw [Entries.keys_cons, List.mem_cons, not_or] at hoptions
    rw [setAll, setAll, List.foldlM_cons, List.foldlM_cons, set_withFields (Ne.symm hoptions.1)]
    cases r.set option.1 option.2 with
    | error => rfl
    | ok r' => exact ih hoptions.2 r'

/-- Listing fields among other options changes the fields that are decoded, and nothing else. -/
theorem ofOptions_withFields {before after : Document} (hoptions : QueryOption.fields.name ∉ Entries.keys (before ++ after))
    (names : List String) :
    ofOptions (before ++ (QueryOption.fields.name, .array (names.map .string)) :: after) =
      (ofOptions (before ++ after)).map (withFields names) := by
  rw [Entries.keys_append, List.mem_append, not_or] at hoptions
  rw [ofOptions_eq_setAll, ofOptions_eq_setAll, setAll_append_eq_bind, setAll_append_eq_bind]
  cases everything.setAll before with
  | error => rfl
  | ok r =>
    have hlisted : r.setAll ((QueryOption.fields.name, .array (names.map .string)) :: after) =
        (r.withFields names).setAll after := by
      rw [setAll, List.foldlM_cons, set_fields]
      rfl
    exact hlisted.trans (setAll_withFields hoptions.2 r names)

/-- Options that list no fields are decoded without any. -/
theorem fields_of_ofOptions {options : Document} (hoptions : QueryOption.fields.name ∉ options.keys) {r : Retrieval}
    (hdecoded : ofOptions options = .ok r) : r.fields = [] := by
  have hsame : everything.setAll options = (everything.setAll options).map (withFields []) :=
    setAll_withFields hoptions everything []
  rw [← ofOptions_eq_setAll, hdecoded] at hsame
  exact congrArg Retrieval.fields (Except.ok.inj hsame)

theorem apply_withFields {r : Retrieval} (hfields : r.fields = []) (names : List String) (ds : List Document) :
    (r.withFields names).apply ds = (r.apply ds).map (project names) := by
  have hwhole : project [] = id := rfl
  rw [apply, apply, hfields, hwhole, List.map_id]
  rfl

/-! ### One document -/

/-- A projection is the identity, if there is one, and then the listed fields that the document has. -/
theorem project_eq_pick {names : List String} (hnames : names ≠ []) (d : Document) :
    project names d = pick d [identityField] ++ pick d (names.filter (· ≠ identityField)).eraseDups := by
  have hlisted : names.isEmpty = false := List.isEmpty_eq_false_iff.mpr hnames
  have hfirst : (identityField :: names).eraseDups = [identityField] ++ (names.filter (· ≠ identityField)).eraseDups := by
    simp [List.eraseDups_cons, beq_eq_decide]
  rw [project, hlisted, if_neg Bool.false_ne_true, pick, Entries.ofList_filterMap, hfirst, List.filterMap_append]
  rfl

theorem get?_pick (d : Document) (names : List String) (name : String) :
    Entries.get? name (pick d names) = if name ∈ names then d.get? name else none := by
  induction names with
  | nil => rfl
  | cons n rest ih =>
    rw [pick] at ih
    rw [pick, List.filterMap_cons]
    by_cases hn : n = name
    · subst hn
      cases hvalue : d.get? n <;> simp_all [Entries.get?]
    · cases hvalue : d.get? n <;> simp_all [Entries.get?, Ne.symm hn]

theorem get?_project {names : List String} (hnames : names ≠ []) (d : Document) (name : String) :
    (project names d).get? name = if name = identityField ∨ name ∈ names then d.get? name else none := by
  rw [project_eq_pick hnames, Entries.get?_append, get?_pick, get?_pick]
  by_cases hidentity : name = identityField
  · subst hidentity
    cases d.get? identityField <;> simp
  · simp [hidentity]

/-- A projection shows the fields that it keeps, so projecting on some of them sees what it would see without it. -/
theorem project_project {names chosen : List String} (hchosen : chosen ≠ []) (hsubset : chosen ⊆ names) (d : Document) :
    project chosen (project names d) = project chosen d := by
  have hnames : names ≠ [] := by
    rintro rfl
    exact hchosen (List.subset_nil.mp hsubset)
  have hpick : ∀ {listed : List String}, (∀ name ∈ listed, name = identityField ∨ name ∈ names) →
      pick (project names d) listed = pick d listed := by
    intro listed hlisted
    refine List.filterMap_congr fun name hname => ?_
    rw [get?_project hnames, if_pos (hlisted name hname)]
  rw [project_eq_pick hchosen, project_eq_pick hchosen, hpick, hpick]
  · intro name hname
    exact .inr (hsubset (List.mem_of_mem_filter (List.mem_eraseDups.mp hname)))
  · intro name hname
    exact .inl (List.mem_singleton.mp hname)

end Retrieval

namespace Collection

theorem search_withFields {before after : Document} (hoptions : QueryOption.fields.name ∉ Entries.keys (before ++ after))
    (c : Collection) (selector : Document) (names : List String) :
    c.search selector (before ++ (QueryOption.fields.name, .array (names.map .string)) :: after) =
      (c.search selector (before ++ after)).map fun ds => ds.map (Retrieval.project names) := by
  rw [search, search, Retrieval.ofOptions_withFields hoptions]
  cases hdecoded : Retrieval.ofOptions (before ++ after) with
  | error => rfl
  | ok r =>
    cases matching selector c.documents with
    | error => rfl
    | ok found =>
      exact congrArg Except.ok (Retrieval.apply_withFields (Retrieval.fields_of_ofOptions hoptions hdecoded) names found)

/-- A request that lists fields gives, position by position, the projections of the documents that it gives without the
list, and is rejected when it is rejected without. A projection starts with the identity, if the document has one, and
goes on with the other listed fields that the document has, each once, in the order in which they are listed first, and
with their values. Projecting on some fields after projecting on more is projecting on the fewer. -/
theorem projections_of_found {names : List String} (hnames : names ≠ []) :
    (∀ (c : Collection) (selector before after : Document), QueryOption.fields.name ∉ Entries.keys (before ++ after) →
      c.find selector (before ++ (QueryOption.fields.name, .array (names.map .string)) :: after) =
        ((c.find selector (before ++ after)).1.map fun ds => ds.map (Retrieval.project names),
          (c.find selector (before ++ after)).2)) ∧
    (∀ d : Document, Retrieval.project names d =
      ((d.get? identityField).map fun id => (identityField, id)).toList ++
        (names.filter (· ≠ identityField)).eraseDups.filterMap fun name => (d.get? name).map fun v => (name, v)) ∧
    ∀ chosen : List String, chosen ≠ [] → chosen ⊆ names → ∀ d : Document,
      Retrieval.project chosen (Retrieval.project names d) = Retrieval.project chosen d := by
  refine ⟨fun c selector before after hoptions => ?_, fun d => ?_, fun chosen hchosen hsubset d => ?_⟩
  · rw [find, find, search_withFields hoptions]
  · have hidentity : Retrieval.pick d [identityField] = ((d.get? identityField).map fun id => (identityField, id)).toList := by
      rw [Retrieval.pick, List.filterMap_cons]
      cases d.get? identityField <;> rfl
    rw [Retrieval.project_eq_pick hnames, hidentity]
    rfl
  · exact Retrieval.project_project hchosen hsubset d

/-! ### The names of large towns -/

/-- A town whose identity stands last. -/
def utrecht : Document := [("name", .string "Utrecht"), ("people", .int64 361000), ("_id", .int64 2)]

def towns : Collection := ⟨"towns", [[("_id", .int64 1), ("name", .string "Delft"), ("people", .int64 104000)], utrecht], 0, 0⟩

def largeTowns : Document := [("people", .document [("$gt", .int64 100000)])]

def byPeople : Document := [("sort", .array [.array [.string "people", .string "descending"]])]

/-- The name twice, the identity after it, and a field that no town has. -/
def townFields : List String := ["name", "_id", "country", "name"]

theorem largeTowns_projected :
    townFields ≠ [] ∧ QueryOption.fields.name ∉ Entries.keys (byPeople ++ [("skip", .int32 1)]) ∧
    (towns.find largeTowns (byPeople ++ ("fields", .array (townFields.map .string)) :: [("skip", .int32 1)])).1 =
      (towns.find largeTowns (byPeople ++ [("skip", .int32 1)])).1.map (fun ds => ds.map (Retrieval.project townFields)) ∧
    Retrieval.project townFields utrecht = [("_id", .int64 2), ("name", .string "Utrecht")] ∧
    ["name"] ⊆ townFields ∧
    Retrieval.project ["name"] (Retrieval.project townFields utrecht) = Retrieval.project ["name"] utrecht := by
  obtain ⟨hfound, hshown, hagain⟩ := projections_of_found (by decide : townFields ≠ [])
  refine ⟨by decide, by decide, ?_, (hshown utrecht).trans rfl, by decide, hagain ["name"] (by decide) (by decide) utrecht⟩
  exact congrArg Prod.fst (hfound towns largeTowns byPeople [("skip", .int32 1)] (by decide))

end Collection

end DocQuery
