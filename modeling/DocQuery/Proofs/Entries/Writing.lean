import Mathlib.Data.List.Induction
import DocQuery.Proofs.Entries

/-!
# What writing leaves

Writing entries in order leaves, under each key, the value that was written last, and a key keeps the place of its
first writing. So each key is there once, and what is left under it is up to the entries with that key alone: later
lists of entries win over earlier ones, and lists without a common key do not meet.
-/

namespace DocQuery.Entries

variable {κ α β : Type} [DecidableEq κ]

/-! ### One entry -/

theorem mem_keys_put {key other : κ} {value : α} {es : Entries κ α} :
    other ∈ (es.put key value).keys ↔ other = key ∨ other ∈ es.keys := by
  rw [keys_put]
  split
  · next hkey =>
    constructor
    · exact .inr
    · rintro (rfl | hother)
      · exact hkey
      · exact hother
  · simp [or_comm]

theorem nodup_keys_put (key : κ) (value : α) {es : Entries κ α} (hkeys : es.keys.Nodup) : (es.put key value).keys.Nodup := by
  rw [keys_put]
  split
  · exact hkeys
  · next hkey => simpa [List.nodup_append, hkeys] using fun other hother => ne_of_mem_of_not_mem hother hkey

theorem mem_put {key : κ} {value : α} {es : Entries κ α} {e : κ × α} (he : e ∈ es.put key value) :
    e = (key, value) ∨ e ∈ es := by
  induction es with
  | nil => simpa [put] using he
  | cons f rest ih =>
    rw [put] at he
    split at he
    · next hkey => exact (List.mem_cons.mp he).imp (fun heq => heq.trans (by rw [hkey])) (List.mem_cons_of_mem f)
    · rcases List.mem_cons.mp he with rfl | hrest
      · exact .inr List.mem_cons_self
      · exact (ih hrest).imp id (List.mem_cons_of_mem f)

theorem put_append {key : κ} (value : α) {es : Entries κ α} (fs : Entries κ α) (hkey : key ∉ es.keys) :
    put key value (es ++ fs) = es ++ fs.put key value := by
  induction es with
  | nil => rfl
  | cons e rest ih =>
    rw [keys_cons, List.mem_cons, not_or] at hkey
    rw [List.cons_append, put, if_neg (Ne.symm hkey.1), ih hkey.2, List.cons_append]

theorem put_mapValues (f : α → β) (key : κ) (value : α) (es : Entries κ α) :
    (es.mapValues f).put key (f value) = (es.put key value).mapValues f := by
  induction es with
  | nil => rfl
  | cons e rest ih =>
    simp only [mapValues, List.map_cons, put] at ih ⊢
    split
    · rfl
    · rw [ih, List.map_cons]

theorem put_put (key : κ) (first second : α) (es : Entries κ α) : (es.put key first).put key second = es.put key second := by
  induction es with
  | nil => simp [put]
  | cons e rest ih =>
    by_cases hkey : e.1 = key
    · simp [put, hkey]
    · simp [put, hkey, ih]

/-- Replacing the value of a key that is there commutes with writing another key. -/
theorem put_comm {key other : κ} (value new : α) {es : Entries κ α} (hkey : key ∈ es.keys) (hother : other ≠ key) :
    (es.put key value).put other new = (es.put other new).put key value := by
  induction es with
  | nil => exact absurd hkey List.not_mem_nil
  | cons e rest ih =>
    by_cases hfirst : e.1 = key
    · simp [put, hfirst, Ne.symm hother]
    · have hrest : key ∈ keys rest := (List.mem_cons.mp hkey).resolve_left (Ne.symm hfirst)
      by_cases hthere : e.1 = other
      · simp [put, hthere, hother]
      · simp [put, hfirst, hthere, ih hrest]

/-! ### Lists of entries -/

theorem putAll_singleton (es : Entries κ α) (e : κ × α) : es.putAll [e] = es.put e.1 e.2 := rfl

theorem putAll_append (es fs gs : Entries κ α) : es.putAll (fs ++ gs) = (es.putAll fs).putAll gs := List.foldl_append

theorem ofList_append (es fs : Entries κ α) : ofList (es ++ fs) = (ofList es).putAll fs := putAll_append [] es fs

theorem mem_keys_putAll {key : κ} {es fs : Entries κ α} : key ∈ (es.putAll fs).keys ↔ key ∈ es.keys ∨ key ∈ fs.keys := by
  induction fs generalizing es with
  | nil => simp [putAll]
  | cons f rest ih =>
    have hstep : key ∈ (es.putAll (f :: rest)).keys ↔ key ∈ (es.put f.1 f.2).keys ∨ key ∈ keys rest := ih
    rw [hstep, mem_keys_put, keys_cons, List.mem_cons]
    tauto

@[simp] theorem mem_keys_ofList {key : κ} {es : Entries κ α} : key ∈ (ofList es).keys ↔ key ∈ es.keys := by
  simp [ofList, mem_keys_putAll]

theorem nodup_keys_putAll (fs : Entries κ α) {es : Entries κ α} (hkeys : es.keys.Nodup) : (es.putAll fs).keys.Nodup := by
  induction fs generalizing es with
  | nil => exact hkeys
  | cons f rest ih => exact ih (nodup_keys_put f.1 f.2 hkeys)

theorem nodup_keys_ofList (es : Entries κ α) : (ofList es).keys.Nodup := nodup_keys_putAll es List.nodup_nil

/-- The keys stand in the order in which each was first written. -/
theorem keys_ofList (es : Entries κ α) : (ofList es).keys = es.keys.eraseDups := by
  induction es using List.reverseRecOn with
  | nil => rfl
  | append_singleton es e ih =>
    rw [ofList_append, putAll_singleton, keys_put, ih, keys_append, List.eraseDups_append]
    by_cases hkey : e.1 ∈ keys es
    · simp [List.removeAll, hkey]
    · simp [List.removeAll, hkey, List.eraseDups_cons]

theorem mem_of_mem_ofList {es : Entries κ α} {e : κ × α} (he : e ∈ ofList es) : e ∈ es := by
  induction es using List.reverseRecOn with
  | nil => exact he
  | append_singleton es f ih =>
    rw [ofList_append] at he
    rcases mem_put he with rfl | he
    · simp
    · exact List.mem_append_left _ (ih he)

theorem ofList_mapValues (f : α → β) (es : Entries κ α) : ofList (es.mapValues f) = (ofList es).mapValues f := by
  induction es using List.reverseRecOn with
  | nil => rfl
  | append_singleton es e ih =>
    have hsplit : mapValues f (es ++ [e]) = mapValues f es ++ [(e.1, f e.2)] := List.map_append
    rw [hsplit, ofList_append, ofList_append, ih]
    exact put_mapValues f e.1 e.2 (ofList es)

/-! ### Lists written into one another -/

theorem put_putAll {key : κ} (value : α) {es fs : Entries κ α} (hes : key ∈ es.keys) (hfs : key ∉ fs.keys) :
    (es.putAll fs).put key value = (es.put key value).putAll fs := by
  induction fs generalizing es with
  | nil => rfl
  | cons f rest ih =>
    rw [keys_cons, List.mem_cons, not_or] at hfs
    have hstep : ((es.put f.1 f.2).putAll rest).put key value = ((es.put f.1 f.2).put key value).putAll rest :=
      ih (mem_keys_put.mpr (.inr hes)) hfs.2
    rw [← put_comm value f.2 hes (Ne.symm hfs.1)] at hstep
    exact hstep

theorem putAll_put (key : κ) (value : α) (es : Entries κ α) {fs : Entries κ α} (hkeys : fs.keys.Nodup) :
    es.putAll (fs.put key value) = (es.putAll fs).put key value := by
  induction fs generalizing es with
  | nil => rfl
  | cons f rest ih =>
    rw [keys_cons, List.nodup_cons] at hkeys
    rw [put]
    split
    · next hkey =>
      -- The key is not written again, so its last value may as well be written at once.
      subst hkey
      have hlast := put_putAll value (mem_keys_put.mpr (.inl rfl) : f.1 ∈ (es.put f.1 f.2).keys) hkeys.1
      rw [put_put] at hlast
      exact hlast.symm
    · exact ih (es.put f.1 f.2) hkeys.2

/-- Writing a list of entries is writing what it leaves. -/
theorem putAll_ofList (es fs : Entries κ α) : es.putAll (ofList fs) = es.putAll fs := by
  induction fs using List.reverseRecOn with
  | nil => rfl
  | append_singleton fs f ih =>
    rw [ofList_append, putAll_append, putAll_singleton, putAll_singleton, putAll_put f.1 f.2 es (nodup_keys_ofList fs), ih]

/-! ### Some of the keys -/

theorem filter_put (p : κ → Bool) (key : κ) (value : α) (es : Entries κ α) :
    (es.put key value).filter (fun e => p e.1) =
      if p key then put key value (es.filter fun e => p e.1) else es.filter fun e => p e.1 := by
  induction es with
  | nil => cases hp : p key <;> simp [put, hp]
  | cons e rest ih =>
    rw [put]
    by_cases hkey : e.1 = key
    · rw [if_pos hkey]
      cases hp : p key <;> simp [put, hkey, hp]
    · rw [if_neg hkey, List.filter_cons, List.filter_cons, ih]
      cases p e.1 <;> cases p key <;> simp [put, hkey]

/-- What is left under some of the keys is up to the entries with those keys. -/
theorem filter_putAll (p : κ → Bool) (es fs : Entries κ α) :
    (es.putAll fs).filter (fun e => p e.1) = putAll (es.filter fun e => p e.1) (fs.filter fun e => p e.1) := by
  induction fs generalizing es with
  | nil => rfl
  | cons f rest ih =>
    have hstep : es.putAll (f :: rest) = (es.put f.1 f.2).putAll rest := rfl
    rw [hstep, ih, filter_put, List.filter_cons]
    split <;> rfl

theorem filter_ofList (p : κ → Bool) (es : Entries κ α) :
    (ofList es).filter (fun e => p e.1) = ofList (es.filter fun e => p e.1) := filter_putAll p [] es

theorem get?_filter {p : κ → Bool} {key : κ} (hkey : p key = true) (es : Entries κ α) :
    get? key (es.filter fun e => p e.1) = es.get? key := by
  induction es with
  | nil => rfl
  | cons e rest ih =>
    rw [List.filter_cons, get?]
    by_cases heq : e.1 = key
    · rw [if_pos (by rw [heq, hkey]), get?, if_pos heq, if_pos heq]
    · rw [if_neg heq, ← ih]
      split
      · rw [get?, if_neg heq]
      · rfl

/-! ### Looking up -/

theorem get?_eq_none_iff {key : κ} {es : Entries κ α} : es.get? key = none ↔ key ∉ es.keys := by
  induction es with
  | nil => simp [get?]
  | cons e rest ih =>
    rw [get?, keys_cons, List.mem_cons, not_or, ← ih]
    split
    · next heq => simp [heq]
    · next hne => simp [Ne.symm hne]

theorem get?_map (f : κ × α → β) (key : κ) (es : Entries κ α) :
    get? key (es.map fun e => (e.1, f e)) = (es.get? key).map fun value => f (key, value) := by
  induction es with
  | nil => rfl
  | cons e rest ih =>
    rw [List.map_cons, get?, get?, ih]
    split
    · next heq => rw [← heq, Option.map_some]
    · rfl

theorem get?_mapValues (f : α → β) (key : κ) (es : Entries κ α) : (es.mapValues f).get? key = (es.get? key).map f :=
  get?_map (fun e => f e.2) key es

theorem get?_append (key : κ) (es fs : Entries κ α) : get? key (es ++ fs) = (es.get? key).or (fs.get? key) := by
  induction es with
  | nil => rfl
  | cons e rest ih =>
    rw [List.cons_append, get?, get?, ih]
    split <;> rfl

/-- The entries written later win. -/
theorem get?_putAll (key : κ) (es fs : Entries κ α) :
    (es.putAll fs).get? key = ((ofList fs).get? key).or (es.get? key) := by
  induction fs using List.reverseRecOn with
  | nil => rfl
  | append_singleton fs f ih =>
    rw [putAll_append, ofList_append, putAll_singleton, putAll_singleton, get?_put, get?_put, ih]
    split <;> rfl

theorem get?_ofList_cons (key : κ) (e : κ × α) (es : Entries κ α) :
    (ofList (e :: es)).get? key = ((ofList es).get? key).or (if e.1 = key then some e.2 else none) := by
  have hfirst : ofList (e :: es) = putAll [e] es := rfl
  rw [hfirst, get?_putAll, get?, get?]

/-- The value left under a key is that of the last entry with the key. -/
theorem get?_ofList_eq_some_iff {key : κ} {value : α} {es : Entries κ α} :
    (ofList es).get? key = some value ↔
      ∃ before after : Entries κ α, es = before ++ (key, value) :: after ∧ key ∉ after.keys := by
  induction es with
  | nil => simp [ofList, putAll, get?]
  | cons e rest ih =>
    rw [get?_ofList_cons, Option.or_eq_some_iff, ih, get?_eq_none_iff, mem_keys_ofList]
    constructor
    · rintro (⟨before, after, rfl, hlast⟩ | ⟨hlast, hvalue⟩)
      · exact ⟨e :: before, after, rfl, hlast⟩
      · split at hvalue
        · next hkey =>
          cases hvalue
          exact ⟨[], rest, by rw [← hkey]; rfl, hlast⟩
        · cases hvalue
    · rintro ⟨before, after, heq, hlast⟩
      cases before with
      | nil =>
        cases heq
        exact .inr ⟨hlast, if_pos rfl⟩
      | cons b before =>
        cases heq
        exact .inl ⟨before, after, rfl, hlast⟩

/-- The value of the last entry with the given key. -/
def last? (key : κ) (es : Entries κ α) : Option α := get? key es.reverse

theorem last?_append_singleton (key : κ) (es : Entries κ α) (e : κ × α) :
    last? key (es ++ [e]) = if e.1 = key then some e.2 else last? key es := by
  rw [last?, List.reverse_append]
  rfl

theorem get?_ofList (key : κ) (es : Entries κ α) : (ofList es).get? key = last? key es := by
  induction es using List.reverseRecOn with
  | nil => rfl
  | append_singleton es e ih => rw [ofList_append, putAll_singleton, get?_put, last?_append_singleton, ih]

/-- Entries with distinct keys are told by their keys and the values of these. -/
theorem eq_filterMap_keys {es : Entries κ α} (hkeys : es.keys.Nodup) :
    es = es.keys.filterMap fun key => (es.get? key).map fun value => (key, value) := by
  rw [keys, List.filterMap_map]
  have hget : ∀ e ∈ es, ((fun key => (es.get? key).map fun value => (key, value)) ∘ Prod.fst) e = some e := by
    intro e he
    simp [get?_of_mem hkeys he]
  rw [List.filterMap_congr hget, List.filterMap_some]

/-- Writing entries in order leaves each key at the place of its first entry with the value of its last. -/
theorem ofList_eq_filterMap (es : Entries κ α) :
    ofList es = es.keys.eraseDups.filterMap fun key => (last? key es).map fun value => (key, value) := by
  calc ofList es = (ofList es).keys.filterMap fun key => ((ofList es).get? key).map fun value => (key, value) :=
        eq_filterMap_keys (nodup_keys_ofList es)
    _ = es.keys.eraseDups.filterMap fun key => (last? key es).map fun value => (key, value) := by
        simp only [keys_ofList, get?_ofList]

/-- Writing values that their keys tell leaves each of them once. -/
theorem ofList_filterMap (f : κ → Option α) (names : List κ) :
    ofList (names.filterMap fun key => (f key).map fun value => (key, value)) =
      names.eraseDups.filterMap fun key => (f key).map fun value => (key, value) := by
  induction names using List.reverseRecOn with
  | nil => rfl
  | append_singleton names name ih =>
    rw [List.filterMap_append, ofList_append, ih, List.eraseDups_append, List.filterMap_append]
    cases hvalue : f name with
    | none => by_cases hname : name ∈ names <;> simp [putAll, List.removeAll, hname, hvalue]
    | some value =>
      have hlast : [name].filterMap (fun key => (f key).map fun value => (key, value)) = [(name, value)] := by simp [hvalue]
      have hnodup := nodup_keys_ofList (names.filterMap fun key => (f key).map fun value => (key, value))
      rw [ih] at hnodup
      rw [hlast, putAll_singleton]
      by_cases hname : name ∈ names
      · have hthere : (name, value) ∈ names.eraseDups.filterMap fun key => (f key).map fun value => (key, value) :=
          List.mem_filterMap.mpr ⟨name, List.mem_eraseDups.mpr hname, by rw [hvalue]; rfl⟩
        rw [put_of_get? (get?_of_mem hnodup hthere)]
        simp [List.removeAll, hname]
      · have hnew : name ∉ keys (names.eraseDups.filterMap fun key => (f key).map fun value => (key, value)) := by
          simp [keys, hname]
        rw [put_of_not_mem value hnew]
        simp [List.removeAll, List.eraseDups_cons, hname, hvalue]

/-- Writing what is there already changes nothing. -/
theorem putAll_of_get? {es fs : Entries κ α} (hthere : ∀ f ∈ fs, es.get? f.1 = some f.2) : es.putAll fs = es := by
  induction fs with
  | nil => rfl
  | cons f rest ih =>
    obtain ⟨hfirst, hrest⟩ := List.forall_mem_cons.mp hthere
    have hstep : es.putAll (f :: rest) = (es.put f.1 f.2).putAll rest := rfl
    rw [hstep, put_of_get? hfirst, ih hrest]

/-! ### Lists without a common key -/

theorem putAll_of_disjoint {es : Entries κ α} (fs : Entries κ α) (hdisjoint : ∀ key ∈ fs.keys, key ∉ es.keys) :
    es.putAll fs = es ++ ofList fs := by
  induction fs using List.reverseRecOn with
  | nil => simp [putAll, ofList]
  | append_singleton fs f ih =>
    rw [keys_append] at hdisjoint
    have hearlier := ih fun key hkey => hdisjoint key (List.mem_append_left _ hkey)
    have hlast := hdisjoint f.1 (List.mem_append_right _ List.mem_cons_self)
    rw [putAll_append, hearlier, ofList_append]
    exact put_append f.2 (ofList fs) hlast

theorem ofList_append_of_disjoint {es fs : Entries κ α} (hdisjoint : ∀ key ∈ fs.keys, key ∉ es.keys) :
    ofList (es ++ fs) = ofList es ++ ofList fs := by
  rw [ofList_append, putAll_of_disjoint]
  exact fun key hkey => mem_keys_ofList.not.mpr (hdisjoint key hkey)

end DocQuery.Entries
