import DocQuery.Registry.Basic

/-!
# What a registry answers

A registry keeps for a type the converter that the type asks for, whatever was looked up before: the built-in types have
theirs from the start, a look-up never replaces a converter, and one that it makes is built from that of the inner type.
-/

namespace DocQuery.Registry

/-- The registry after look-ups in order. -/
def afterLookUps (r : Registry) (types : List PropertyType) : Registry := types.foldl (fun r type => (r.lookUp type).2) r

/-- The built-in types have a converter, and every type that has one has that which it asks for. -/
structure Sound (r : Registry) : Prop where
  builtIn : ∀ type ∈ builtIn, (r.get? type).isSome
  faithful : ∀ type found, r.get? type = some found → found.converter = type.converter

theorem get?_add (r : Registry) (type other : PropertyType) (c : Converter) :
    (r.add type c).2.get? other = if type = other then some ⟨r.size, c⟩ else r.get? other :=
  Entries.get?_put type other _ r.entries

private theorem faithful_add {r : Registry} (type : PropertyType)
    (hfaithful : ∀ type found, r.get? type = some found → found.converter = type.converter) :
    ∀ other found, (r.add type type.converter).2.get? other = some found → found.converter = other.converter := by
  intro other found hfound
  rw [get?_add] at hfound
  split at hfound
  · next heq =>
    cases hfound
    exact congrArg PropertyType.converter heq
  · exact hfaithful other found hfound

theorem Sound.add {r : Registry} (hsound : r.Sound) (type : PropertyType) : (r.add type type.converter).2.Sound := by
  refine ⟨fun other hother => ?_, faithful_add type hsound.faithful⟩
  rw [get?_add]
  split
  · rfl
  · exact hsound.builtIn other hother

theorem sound_initial : initial.Sound := by
  refine ⟨by decide +kernel, ?_⟩
  have hfold : ∀ (types : List PropertyType) (r : Registry),
      (∀ type found, r.get? type = some found → found.converter = type.converter) →
      ∀ type found, (types.foldl (fun r type => (r.add type type.converter).2) r).get? type = some found →
        found.converter = type.converter := by
    intro types
    induction types with
    | nil => exact fun r hr => hr
    | cons type rest ih => exact fun r hr => ih _ (faithful_add type hr)
  exact hfold builtIn ⟨[]⟩ fun type found hfound => by simp [get?, Entries.get?] at hfound

theorem lookUp_of_get? {r : Registry} {type : PropertyType} {found : Registered} (hget : r.get? type = some found) :
    r.lookUp type = (found, r) := by
  unfold lookUp
  rw [hget]

theorem lookUp_custom {r : Registry} {name : String} (hget : r.get? (.custom name) = none) :
    r.lookUp (.custom name) = r.add (.custom name) (.named name) := by
  unfold lookUp
  rw [hget]
  rfl

theorem lookUp_array {r : Registry} {inner : PropertyType} (hget : r.get? (.array inner) = none) :
    r.lookUp (.array inner) = (r.lookUp inner).2.add (.array inner) (.array (r.lookUp inner).1.converter) := by
  rw [lookUp, hget]

theorem lookUp_map {r : Registry} {inner : PropertyType} (hget : r.get? (.map inner) = none) :
    r.lookUp (.map inner) = (r.lookUp inner).2.add (.map inner) (.map (r.lookUp inner).1.converter) := by
  rw [lookUp, hget]

theorem Sound.lookUp_of_get? {r : Registry} (hsound : r.Sound) {type : PropertyType} {found : Registered}
    (hget : r.get? type = some found) : (r.lookUp type).1.converter = type.converter ∧ (r.lookUp type).2.Sound := by
  rw [Registry.lookUp_of_get? hget]
  exact ⟨hsound.faithful _ _ hget, hsound⟩

theorem Sound.lookUp_of_builtIn {r : Registry} (hsound : r.Sound) {type : PropertyType} (htype : type ∈ Registry.builtIn) :
    (r.lookUp type).1.converter = type.converter ∧ (r.lookUp type).2.Sound := by
  obtain ⟨found, hget⟩ := Option.isSome_iff_exists.mp (hsound.builtIn type htype)
  exact hsound.lookUp_of_get? hget

/-- A look-up finds or makes the converter that the type asks for, and keeps all others. -/
theorem Sound.lookUp {r : Registry} (hsound : r.Sound) (type : PropertyType) :
    (r.lookUp type).1.converter = type.converter ∧ (r.lookUp type).2.Sound := by
  induction type generalizing r with
  | array inner ih =>
    cases hget : r.get? (.array inner) with
    | some found => exact hsound.lookUp_of_get? hget
    | none =>
      obtain ⟨hinner, hkept⟩ := ih hsound
      rw [lookUp_array hget, hinner]
      exact ⟨rfl, hkept.add (.array inner)⟩
  | map inner ih =>
    cases hget : r.get? (.map inner) with
    | some found => exact hsound.lookUp_of_get? hget
    | none =>
      obtain ⟨hinner, hkept⟩ := ih hsound
      rw [lookUp_map hget, hinner]
      exact ⟨rfl, hkept.add (.map inner)⟩
  | custom name =>
    cases hget : r.get? (.custom name) with
    | some found => exact hsound.lookUp_of_get? hget
    | none =>
      rw [lookUp_custom hget]
      exact ⟨rfl, hsound.add (.custom name)⟩
  | _ =>
    exact hsound.lookUp_of_builtIn (by decide)

theorem Sound.afterLookUps {r : Registry} (hsound : r.Sound) (types : List PropertyType) :
    (r.afterLookUps types).Sound := by
  induction types generalizing r with
  | nil => exact hsound
  | cons type rest ih => exact ih (hsound.lookUp type).2

end DocQuery.Registry
