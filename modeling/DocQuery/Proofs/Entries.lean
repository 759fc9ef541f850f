import Mathlib.Data.List.Perm.Basic
import DocQuery.Entries

/-!
# Entries with distinct keys

A list of entries stands for a table when its keys are distinct: each key has the one value that stands with it,
and writing the list anew gives it back. A map is kept in the order of its keys. There is one such list for each
table, so writing the entries of a map in any order gives the map.
-/

namespace DocQuery

namespace Entries

variable {κ α β : Type}

/-- What comes back item by item comes back as a list. -/
theorem map_map_back {f : α → β} {g : β → α} {l : List α} (hback : ∀ a ∈ l, g (f a) = a) : (l.map f).map g = l := by
  rw [List.map_map]
  exact (List.map_congr_left hback).trans (List.map_id l)

theorem mapValues_mapValues {γ : Type} (f : α → β) (g : β → γ) (es : Entries κ α) :
    (es.mapValues f).mapValues g = es.mapValues (g ∘ f) := List.map_map

theorem mapValues_eq_mapValues_iff {f g : α → β} {es : Entries κ α} :
    es.mapValues f = es.mapValues g ↔ ∀ e ∈ es, f e.2 = g e.2 := by
  simp [mapValues]

/-! ### Keys -/

@[simp] theorem keys_nil : keys ([] : Entries κ α) = [] := rfl

@[simp] theorem keys_cons (e : κ × α) (es : Entries κ α) : keys (e :: es) = e.1 :: keys es := rfl

@[simp] theorem keys_append (es fs : Entries κ α) : keys (es ++ fs) = keys es ++ keys fs := List.map_append

@[simp] theorem keys_mapValues (f : α → β) (es : Entries κ α) : (es.mapValues f).keys = es.keys := List.map_map

@[simp] theorem length_mapValues (f : α → β) (es : Entries κ α) : (es.mapValues f).length = es.length := List.length_map _

theorem mem_keys_of_mem {es : Entries κ α} {e : κ × α} (he : e ∈ es) : e.1 ∈ keys es := List.mem_map_of_mem he

theorem keys_perm {es fs : Entries κ α} (hperm : es.Perm fs) : (keys es).Perm (keys fs) := hperm.map _

section Written

variable [DecidableEq κ]

theorem mem_of_get? {key : κ} {value : α} {es : Entries κ α} (hget : es.get? key = some value) : (key, value) ∈ es := by
  induction es with
  | nil => simp [get?] at hget
  | cons e rest ih =>
    obtain ⟨k, v⟩ := e
    by_cases hk : k = key
    · simp_all [get?]
    · rw [get?, if_neg hk] at hget
      exact List.mem_cons_of_mem _ (ih hget)

theorem get?_of_mem {key : κ} {value : α} {es : Entries κ α} (hkeys : es.keys.Nodup) (hmem : (key, value) ∈ es) :
    es.get? key = some value := by
  induction es with
  | nil => simp at hmem
  | cons e rest ih =>
    obtain ⟨k, v⟩ := e
    rw [keys_cons, List.nodup_cons] at hkeys
    rcases List.mem_cons.mp hmem with heq | hrest
    · cases heq
      simp [get?]
    · have hk : k ≠ key := by
        rintro rfl
        have hagain := mem_keys_of_mem hrest
        exact hkeys.1 hagain
      rw [get?, if_neg hk, ih hkeys.2 hrest]

/-! ### Writing -/

theorem put_of_not_mem {key : κ} (value : α) {es : Entries κ α} (hkey : key ∉ es.keys) :
    es.put key value = es ++ [(key, value)] := by
  induction es with
  | nil => rfl
  | cons e rest ih =>
    rw [keys_cons, List.mem_cons, not_or] at hkey
    rw [put, if_neg (Ne.symm hkey.1), ih hkey.2, List.cons_append]

theorem putAll_of_nodup {es fs : Entries κ α} (hkeys : (keys (es ++ fs)).Nodup) : es.putAll fs = es ++ fs := by
  induction fs generalizing es with
  | nil => simp [putAll]
  | cons e rest ih =>
    have hnew : e.1 ∉ es.keys := by
      rw [keys_append, keys_cons] at hkeys
      exact fun hmem => (List.nodup_append.mp hkeys).2.2 _ hmem _ List.mem_cons_self rfl
    have hmoved : es ++ e :: rest = (es ++ [e]) ++ rest := by simp
    rw [hmoved] at hkeys ⊢
    rw [← ih hkeys, ← put_of_not_mem e.2 hnew]
    rfl

/-- Entries with distinct keys are what writing them in order leaves. -/
theorem ofList_of_nodup {es : Entries κ α} (hkeys : es.keys.Nodup) : ofList es = es := putAll_of_nodup hkeys

end Written

/-! ### Maps -/

/-- The keys stand in increasing order, as those of a map do. -/
def IsSorted (es : Entries String α) : Prop := es.Pairwise fun e f => e.1 < f.1

instance (es : Entries String α) : Decidable es.IsSorted :=
  inferInstanceAs (Decidable (es.Pairwise fun e f => e.1 < f.1))

theorem isSorted_nil : IsSorted ([] : Entries String α) := List.Pairwise.nil

theorem IsSorted.nodup_keys {es : Entries String α} (hsorted : es.IsSorted) : es.keys.Nodup :=
  List.Pairwise.map _ (fun _ _ => String.ne_of_lt) hsorted

theorem IsSorted.map {es : Entries String α} (hsorted : es.IsSorted) {f : String × α → String × β}
    (hkey : ∀ e, (f e).1 = e.1) : IsSorted (es.map f) := by
  rw [IsSorted, List.pairwise_map]
  simp only [hkey]
  exact hsorted

theorem IsSorted.mapValues {es : Entries String α} (hsorted : es.IsSorted) (f : α → β) : (es.mapValues f).IsSorted :=
  hsorted.map fun _ => rfl

theorem mem_sortedPut {key : String} {value : α} {es : Entries String α} {e : String × α}
    (he : e ∈ es.sortedPut key value) : e = (key, value) ∨ e ∈ es := by
  induction es with
  | nil => simpa [sortedPut] using he
  | cons f rest ih =>
    rw [sortedPut] at he
    split at he
    · simpa using he
    · split at he
      · exact (List.mem_cons.mp he).imp id (List.mem_cons_of_mem _)
      · rcases List.mem_cons.mp he with rfl | hrest
        · exact .inr List.mem_cons_self
        · exact (ih hrest).imp id (List.mem_cons_of_mem _)

theorem IsSorted.sortedPut (key : String) (value : α) {es : Entries String α} (hsorted : es.IsSorted) :
    (es.sortedPut key value).IsSorted := by
  induction es with
  | nil => exact List.pairwise_singleton _ _
  | cons e rest ih =>
    obtain ⟨hhead, hrest⟩ := List.pairwise_cons.mp hsorted
    rw [Entries.sortedPut]
    split
    · next hlt =>
      refine List.pairwise_cons.mpr ⟨fun f hf => ?_, hsorted⟩
      rcases List.mem_cons.mp hf with rfl | hf
      · exact hlt
      · exact String.lt_trans hlt (hhead f hf)
    · next hge =>
      split
      · next heq =>
        subst heq
        exact List.pairwise_cons.mpr ⟨hhead, hrest⟩
      · next hne =>
        refine List.pairwise_cons.mpr ⟨fun f hf => ?_, ih hrest⟩
        rcases mem_sortedPut hf with rfl | hf
        · exact Std.lt_of_le_of_ne (String.not_lt.mp hge) (Ne.symm hne)
        · exact hhead f hf

theorem sortedPut_perm {key : String} (value : α) {es : Entries String α} (hkey : key ∉ es.keys) :
    (es.sortedPut key value).Perm ((key, value) :: es) := by
  induction es with
  | nil => exact List.Perm.refl _
  | cons e rest ih =>
    rw [keys_cons, List.mem_cons, not_or] at hkey
    rw [sortedPut, if_neg hkey.1]
    split
    · exact List.Perm.refl _
    · exact ((ih hkey.2).cons _).trans (List.Perm.swap ..)

private theorem foldl_sortedPut (es : List (String × α)) {written : Entries String α} (hsorted : written.IsSorted) :
    (es.foldl (fun es e => es.sortedPut e.1 e.2) written).IsSorted ∧
      ((keys (written ++ es)).Nodup → (es.foldl (fun es e => es.sortedPut e.1 e.2) written).Perm (written ++ es)) := by
  induction es generalizing written with
  | nil => simpa using hsorted
  | cons e rest ih =>
    obtain ⟨hsorted', hperm⟩ := ih (hsorted.sortedPut e.1 e.2)
    refine ⟨hsorted', fun hkeys => ?_⟩
    have hmoved : (written ++ e :: rest).Perm (e :: written ++ rest) := List.perm_middle
    have hnew : e.1 ∉ written.keys := by
      have hkeys' := (keys_perm hmoved).nodup_iff.mp hkeys
      rw [List.cons_append, keys_cons, List.nodup_cons, keys_append, List.mem_append, not_or] at hkeys'
      exact hkeys'.1.1
    have hput := (sortedPut_perm e.2 hnew).append_right rest
    exact (hperm ((keys_perm (hput.trans hmoved.symm)).nodup_iff.mpr hkeys)).trans (hput.trans hmoved.symm)

theorem isSorted_sorted (es : List (String × α)) : (sorted es).IsSorted := (foldl_sortedPut es isSorted_nil).1

theorem sorted_perm {es : Entries String α} (hkeys : es.keys.Nodup) : (sorted es).Perm es :=
  (foldl_sortedPut es isSorted_nil).2 hkeys

theorem mapValues_sortedPut (f : α → β) (key : String) (value : α) (es : Entries String α) :
    (es.sortedPut key value).mapValues f = (es.mapValues f).sortedPut key (f value) := by
  induction es with
  | nil => rfl
  | cons e rest ih =>
    simp only [mapValues, List.map_cons, sortedPut] at ih ⊢
    split
    · rfl
    · split
      · rfl
      · rw [List.map_cons, ih]

/-- A map with other values has its entries in the same order. -/
theorem mapValues_sorted (f : α → β) (es : List (String × α)) : (sorted es).mapValues f = sorted (mapValues f es) := by
  have hfold : ∀ written : Entries String α, (es.foldl (fun es e => es.sortedPut e.1 e.2) written).mapValues f =
      (mapValues f es).foldl (fun es e => es.sortedPut e.1 e.2) (written.mapValues f) := by
    induction es with
    | nil => exact fun written => rfl
    | cons e rest ih =>
      intro written
      rw [List.foldl_cons, ih, mapValues_sortedPut]
      rfl
  exact hfold []

/-- A map is determined by its entries. -/
theorem IsSorted.eq_of_perm {es fs : Entries String α} (hes : es.IsSorted) (hfs : fs.IsSorted) (hperm : es.Perm fs) :
    es = fs :=
  hperm.eq_of_pairwise (fun _ _ _ _ hlt hgt => absurd hgt (String.lt_asymm hlt)) hes hfs

/-- Writing the entries of a map in any order gives the map. -/
theorem sorted_of_perm {es fs : Entries String α} (hfs : fs.IsSorted) (hperm : es.Perm fs) : sorted es = fs :=
  (isSorted_sorted es).eq_of_perm hfs ((sorted_perm ((keys_perm hperm).nodup_iff.mpr hfs.nodup_keys)).trans hperm)

theorem sorted_of_isSorted {es : Entries String α} (hes : es.IsSorted) : sorted es = es :=
  sorted_of_perm hes (List.Perm.refl es)

end Entries

end DocQuery
