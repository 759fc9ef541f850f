import Mathlib.Data.Finset.Card
import Mathlib.Data.List.Nodup
import DocQuery.Proofs.Entries.Writing
import DocQuery.Proofs.Registry.Lookup

/-!
# What a registry keeps

A registry only grows, and by no more than it is asked for: a look-up adds the type and those of its inner types that
are missing. This rests on one invariant. A type is kept together with its inner types, so nothing is missing below a
type that is found, and a type is never among its own inner types, so what a look-up adds is new. Serial numbers are
then the places in the table, which tell two types apart and stay what they are.
-/

namespace DocQuery

/-- A type with its inner types, at every depth. -/
def PropertyType.withInner : PropertyType → List PropertyType
  | .array inner => .array inner :: inner.withInner
  | .map inner => .map inner :: inner.withInner
  | type => [type]

namespace PropertyType

theorem sizeOf_le_of_mem_withInner {type other : PropertyType} (hother : other ∈ type.withInner) :
    sizeOf other ≤ sizeOf type := by
  induction type with
  | array inner ih | map inner ih =>
    rcases List.mem_cons.mp hother with rfl | hinner
    · exact Nat.le_refl _
    · exact Nat.le_trans (ih hinner) (by simp)
  | _ => exact Nat.le_of_eq (congrArg sizeOf (List.mem_singleton.mp hother))

theorem not_mem_withInner_of_lt {type inner : PropertyType} (hsize : sizeOf inner < sizeOf type) :
    type ∉ inner.withInner := fun hself => Nat.not_le.mpr hsize (sizeOf_le_of_mem_withInner hself)

end PropertyType

namespace Registry

variable {r : Registry} {type : PropertyType} {found : Registered}

/-- The types that have a converter. -/
def types (r : Registry) : List PropertyType := r.entries.keys

theorem contains_iff : r.contains type = true ↔ type ∈ r.types := by
  rw [contains, Option.isSome_iff_ne_none]
  exact Entries.get?_eq_none_iff.not_left

theorem get?_eq_none_iff : r.get? type = none ↔ type ∉ r.types := Entries.get?_eq_none_iff

/-- The converters stand in the order in which they were made, and inner types have theirs. -/
structure WellKept (r : Registry) : Prop where
  sound : r.Sound
  distinct : r.types.Nodup
  numbered : r.entries.map (·.2.serial) = List.range r.size
  closed : ∀ type ∈ r.types, type.withInner ⊆ r.types

/-- What a look-up of a type makes of a registry. -/
structure Serves (r : Registry) (type : PropertyType) (outcome : Registered × Registry) : Prop where
  wellKept : outcome.2.WellKept
  kept : r.entries <+: outcome.2.entries
  types : ∀ other, other ∈ outcome.2.types ↔ other ∈ r.types ∨ other ∈ type.withInner
  found : outcome.2.get? type = some outcome.1

theorem entries_add (c : Converter) (hnew : type ∉ r.types) :
    (r.add type c).2.entries = r.entries ++ [(type, ⟨r.size, c⟩)] := Entries.put_of_not_mem _ hnew

theorem types_add (c : Converter) (hnew : type ∉ r.types) : (r.add type c).2.types = r.types ++ [type] := by
  rw [types, entries_add c hnew, Entries.keys_append]
  rfl

theorem WellKept.add (hr : r.WellKept) (hnew : type ∉ r.types) (hinner : type.withInner ⊆ type :: r.types) :
    (r.add type type.converter).2.WellKept where
  sound := hr.sound.add type
  distinct := by
    rw [types_add _ hnew, ← List.concat_eq_append]
    exact hr.distinct.concat hnew
  numbered := by
    have hsize : (r.add type type.converter).2.size = r.size + 1 := by rw [size, entries_add _ hnew]; simp [size]
    rw [hsize, entries_add _ hnew, List.map_append, hr.numbered, List.range_succ]
    rfl
  closed := by
    intro other hother
    rw [types_add _ hnew] at hother ⊢
    rcases List.mem_append.mp hother with hother | hother
    · exact List.Subset.trans (hr.closed other hother) (List.subset_append_left _ _)
    · rw [List.mem_singleton.mp hother]
      exact fun t ht => by simpa [or_comm] using hinner ht

/-- A type that is found is there with its inner types. -/
theorem WellKept.serves_of_get? (hr : r.WellKept) (hget : r.get? type = some found) : r.Serves type (r.lookUp type) := by
  rw [lookUp_of_get? hget]
  refine ⟨hr, List.prefix_refl _, fun other => ?_, hget⟩
  have htype : type ∈ r.types := Entries.mem_keys_of_mem (Entries.mem_of_get? hget)
  exact ⟨.inl, fun hother => hother.elim id fun hinner => hr.closed type htype hinner⟩

theorem WellKept.serves_of_builtIn (hr : r.WellKept) (htype : type ∈ builtIn) : r.Serves type (r.lookUp type) := by
  obtain ⟨found, hget⟩ := Option.isSome_iff_exists.mp (hr.sound.builtIn type htype)
  exact hr.serves_of_get? hget

/-- A type that is added after its inner types were looked up. -/
theorem WellKept.serves_add {s : Registry} {inner : List PropertyType} (hs : s.WellKept) (hkept : r.entries <+: s.entries)
    (htypes : ∀ other, other ∈ s.types ↔ other ∈ r.types ∨ other ∈ inner) (hwith : type.withInner = type :: inner)
    (hnew : type ∉ r.types) (hself : type ∉ inner) : r.Serves type (s.add type type.converter) := by
  have hfresh : type ∉ s.types := fun htype => ((htypes type).mp htype).elim hnew hself
  refine ⟨hs.add hfresh ?_, ?_, fun other => ?_, ?_⟩
  · rw [hwith]
    exact List.cons_subset_cons type fun other hother => (htypes other).mpr (.inr hother)
  · rw [entries_add _ hfresh]
    exact hkept.trans (List.prefix_append _ _)
  · rw [types_add _ hfresh, hwith, List.mem_append, htypes, List.mem_singleton, List.mem_cons]
    tauto
  · rw [get?_add, if_pos rfl]
    rfl

theorem WellKept.serves (hr : r.WellKept) (type : PropertyType) : r.Serves type (r.lookUp type) := by
  induction type generalizing r with
  | array inner ih =>
    cases hget : r.get? (.array inner) with
    | some found => exact hr.serves_of_get? hget
    | none =>
      have hinner := ih hr
      rw [lookUp_array hget, (hr.sound.lookUp inner).1]
      exact hinner.wellKept.serves_add hinner.kept hinner.types rfl (get?_eq_none_iff.mp hget)
        (PropertyType.not_mem_withInner_of_lt (by simp))
  | map inner ih =>
    cases hget : r.get? (.map inner) with
    | some found => exact hr.serves_of_get? hget
    | none =>
      have hinner := ih hr
      rw [lookUp_map hget, (hr.sound.lookUp inner).1]
      exact hinner.wellKept.serves_add hinner.kept hinner.types rfl (get?_eq_none_iff.mp hget)
        (PropertyType.not_mem_withInner_of_lt (by simp))
  | custom name =>
    cases hget : r.get? (.custom name) with
    | some found => exact hr.serves_of_get? hget
    | none =>
      rw [lookUp_custom hget]
      exact hr.serves_add (List.prefix_refl _) (fun _ => by simp) rfl (get?_eq_none_iff.mp hget) List.not_mem_nil
  | _ => exact hr.serves_of_builtIn (by decide)

theorem wellKept_initial : initial.WellKept where
  sound := sound_initial
  distinct := by decide +kernel
  numbered := by decide +kernel
  closed := by decide +kernel

/-! ### Many look-ups -/

theorem afterLookUps_cons (r : Registry) (type : PropertyType) (rest : List PropertyType) :
    r.afterLookUps (type :: rest) = (r.lookUp type).2.afterLookUps rest := rfl

theorem afterLookUps_append (r : Registry) (earlier later : List PropertyType) :
    r.afterLookUps (earlier ++ later) = (r.afterLookUps earlier).afterLookUps later := List.foldl_append

theorem WellKept.afterLookUps (hr : r.WellKept) (lookedUp : List PropertyType) :
    (r.afterLookUps lookedUp).WellKept ∧ r.entries <+: (r.afterLookUps lookedUp).entries ∧
      ∀ other, other ∈ (r.afterLookUps lookedUp).types ↔
        other ∈ r.types ∨ ∃ type ∈ lookedUp, other ∈ type.withInner := by
  induction lookedUp generalizing r with
  | nil => exact ⟨hr, List.prefix_refl _, fun other => by simp [Registry.afterLookUps]⟩
  | cons type rest ih =>
    have hserves := hr.serves type
    obtain ⟨hkept, hgrown, htypes⟩ := ih hserves.wellKept
    refine ⟨hkept, hserves.kept.trans hgrown, fun other => ?_⟩
    rw [afterLookUps_cons, htypes, hserves.types, List.exists_mem_cons_iff, or_assoc]

theorem wellKept_afterLookUps (earlier : List PropertyType) : (initial.afterLookUps earlier).WellKept :=
  (wellKept_initial.afterLookUps earlier).1

theorem get?_of_prefix {s : Registry} (hgrown : r.entries <+: s.entries) (hget : r.get? type = some found) :
    s.get? type = some found := by
  obtain ⟨added, hadded⟩ := hgrown
  rw [get?, ← hadded, Entries.get?_append, ← get?, hget, Option.some_or]

theorem WellKept.eq_of_serial (hr : r.WellKept) {a b : PropertyType} {f g : Registered} (hf : r.get? a = some f)
    (hg : r.get? b = some g) (hserial : f.serial = g.serial) : a = b := by
  have hserials : (r.entries.map (·.2.serial)).Nodup := by
    rw [hr.numbered]
    exact List.nodup_range
  exact congrArg Prod.fst
    (List.inj_on_of_nodup_map hserials (Entries.mem_of_get? hf) (Entries.mem_of_get? hg) hserial)

/-- Two look-ups, whatever was looked up in between, find one converter just if they are of one type. -/
theorem WellKept.serial_eq_iff (hr : r.WellKept) (a b : PropertyType) (between : List PropertyType) :
    ((r.lookUp a).1.serial = (((r.lookUp a).2.afterLookUps between).lookUp b).1.serial ↔ a = b) ∧
      (a = b → (((r.lookUp a).2.afterLookUps between).lookUp b).1 = (r.lookUp a).1) := by
  have hfirst := hr.serves a
  obtain ⟨hmeanwhile, hgrown, -⟩ := hfirst.wellKept.afterLookUps between
  have hsecond := hmeanwhile.serves b
  have hstill := get?_of_prefix (hgrown.trans hsecond.kept) hfirst.found
  have hsame : a = b → (((r.lookUp a).2.afterLookUps between).lookUp b).1 = (r.lookUp a).1 := by
    rintro rfl
    exact Option.some.inj (hsecond.found.symm.trans hstill)
  refine ⟨⟨hsecond.wellKept.eq_of_serial hstill hsecond.found, fun heq => ?_⟩, hsame⟩
  rw [hsame heq]

end Registry

end DocQuery
