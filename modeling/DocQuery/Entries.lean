/-!
# Keyed entries

Documents, sets of conditions and tables are lists of keys with values. Writing a key that is already
there replaces its value and keeps its place, so a list built by writing shows its keys in the order in
which each was first written, with the value last written. A map with text keys is kept in the order of
its keys instead.
-/

namespace DocQuery

abbrev Entries (κ α : Type) := List (κ × α)

namespace Entries

variable {κ α β : Type}

section Written

variable [DecidableEq κ]

/-- The value of the first entry with the given key. -/
def get? (key : κ) : Entries κ α → Option α
  | [] => none
  | (k, v) :: rest => if k = key then some v else get? key rest

/-- Writes a value under a key: in place of the value the key has, or at the end. -/
def put (key : κ) (value : α) : Entries κ α → Entries κ α
  | [] => [(key, value)]
  | (k, v) :: rest => if k = key then (k, value) :: rest else (k, v) :: put key value rest

/-- Writes all entries of the second list into the first, in order. -/
def putAll (es fs : Entries κ α) : Entries κ α := fs.foldl (fun es e => put e.1 e.2 es) es

/-- The entries that writing a list of pairs in order leaves. -/
def ofList (es : List (κ × α)) : Entries κ α := putAll [] es

/-- The entries without those under a key. -/
def erase (key : κ) (es : Entries κ α) : Entries κ α := es.filter fun e => e.1 ≠ key

theorem get?_put (key other : κ) (value : α) (es : Entries κ α) :
    get? other (put key value es) = if key = other then some value else get? other es := by
  induction es with
  | nil => by_cases h : key = other <;> simp [put, get?, h]
  | cons e rest ih =>
    obtain ⟨k, v⟩ := e
    by_cases hk : k = key
    · subst hk
      by_cases h : k = other <;> simp [put, get?, h]
    · by_cases h : key = other
      · subst h
        simp [put, get?, hk, ih]
      · rw [put, if_neg hk, get?, get?, ih, if_neg h, if_neg h]

/-- Writing the value that a key has changes nothing. -/
theorem put_of_get? {key : κ} {value : α} {es : Entries κ α} (h : get? key es = some value) :
    put key value es = es := by
  induction es with
  | nil => simp [get?] at h
  | cons e rest ih =>
    obtain ⟨k, v⟩ := e
    by_cases hk : k = key
    · simp_all [put, get?]
    · rw [get?, if_neg hk] at h
      rw [put, if_neg hk, ih h]

theorem get?_erase (key other : κ) (es : Entries κ α) :
    get? other (erase key es) = if key = other then none else get? other es := by
  induction es with
  | nil => simp [erase, get?]
  | cons e rest ih =>
    obtain ⟨k, v⟩ := e
    rw [erase] at ih
    by_cases hk : k = key
    · subst hk
      rw [erase, List.filter_cons_of_neg (by simp), ih, get?]
      split <;> rfl
    · rw [erase, List.filter_cons_of_pos (by simpa using hk), get?, ih, get?]
      by_cases ho : key = other
      · subst ho
        rw [if_pos rfl, if_pos rfl, if_neg hk]
      · rw [if_neg ho, if_neg ho]

end Written

def keys (es : Entries κ α) : List κ := es.map Prod.fst

def mapValues (f : α → β) (es : Entries κ α) : Entries κ β := es.map fun e => (e.1, f e.2)

/-- The keys after writing: a new key is added at the end. -/
theorem keys_put [DecidableEq κ] (key : κ) (value : α) (es : Entries κ α) :
    keys (put key value es) = if key ∈ keys es then keys es else keys es ++ [key] := by
  induction es with
  | nil => simp [put, keys]
  | cons e rest ih =>
    obtain ⟨k, v⟩ := e
    by_cases hk : k = key
    · subst hk
      simp [put, keys]
    · simp only [keys] at ih
      have hk' : ¬ key = k := fun h => hk h.symm
      by_cases hm : key ∈ rest.map Prod.fst <;> simp_all [put, keys]

/-- The sum of a number that every value has. -/
def total (f : α → Nat) : Entries κ α → Nat
  | [] => 0
  | (_, v) :: rest => f v + total f rest

/-! ### Maps in the order of their keys -/

/-- Writes a value under a key of a map whose keys are in increasing order. -/
def sortedPut (key : String) (value : α) : Entries String α → Entries String α
  | [] => [(key, value)]
  | (k, v) :: rest =>
    if key < k then (key, value) :: (k, v) :: rest
    else if key = k then (key, value) :: rest
    else (k, v) :: sortedPut key value rest

/-- The map that writing a list of pairs in order leaves, its keys in increasing order. -/
def sorted (es : List (String × α)) : Entries String α :=
  es.foldl (fun es e => sortedPut e.1 e.2 es) []

end Entries

end DocQuery
