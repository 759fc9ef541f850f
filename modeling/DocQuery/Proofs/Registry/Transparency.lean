import DocQuery.Proofs.Registry.Cache
import DocQuery.Registry.Mapping

/-!
# A registry is not noticed

Nothing that is loaded, dumped or compiled shows which converters a registry holds already. A computation that carries
a registry along does no more to it than look types up, and a look-up answers with the converter that the type asks
for. Reading such a computation without the registry therefore gives its result, one step after the other.
-/

namespace DocQuery

namespace PropertyType

/-- What a property of a type stores for a value, read off the type: the inner type says what becomes of the items of an
array and of the values of a map, and untyped and custom values, like those of an unexpected shape, go by their kind. -/
def stored : PropertyType → Value → StoreValue
  | .string, v => Converter.storeString v
  | .integer, v => Converter.storeInteger v
  | .float, v => Converter.storeFloat v
  | .boolean, v => Converter.storeBoolean v
  | .symbol, v => Converter.storeSymbol v
  | .date, v => Converter.storeDate v
  | .time, v => Converter.storeTime v
  | .array inner, .array items => .array (items.map inner.stored)
  | .map inner, .map entries => .document (Entries.mapValues inner.stored entries)
  | _, v => v.toStored

/-- What a property of a type reads from a stored value. -/
def loaded : PropertyType → StoreValue → Value
  | .string, v => Converter.loadString v
  | .integer, v => Converter.loadInteger v
  | .float, v => Converter.loadFloat v
  | .boolean, v => Converter.loadBoolean v
  | .symbol, v => Converter.loadSymbol v
  | .date, v => Converter.loadDate v
  | .time, v => Converter.loadTime v
  | .array inner, .array items => .array (items.map inner.loaded)
  | .map inner, .document fields => .map (Entries.sorted (Entries.mapValues inner.loaded fields))
  | _, v => Value.ofStored v

theorem toStore_converter (type : PropertyType) : type.converter.toStore = type.stored := by
  induction type with
  | array inner ih | map inner ih =>
    funext v
    cases v <;> simp only [converter, Converter.toStore, stored, ih]
  | _ => rfl

theorem fromStore_converter (type : PropertyType) : type.converter.fromStore = type.loaded := by
  induction type with
  | array inner ih | map inner ih =>
    funext v
    cases v <;> simp only [converter, Converter.fromStore, loaded, ih]
  | _ => rfl

end PropertyType

namespace Registry

variable {α β : Type} {m : StateM Registry α} {a : α}

/-- Whatever sound registry it is given, the computation has the value for its result and does nothing but look-ups. -/
def Yields (m : StateM Registry α) (a : α) : Prop :=
  ∀ r : Registry, r.Sound → (m.run r).1 = a ∧ ∃ lookedUp, (m.run r).2 = r.afterLookUps lookedUp

theorem yields_pure (a : α) : Yields (pure a) a := fun _ _ => ⟨rfl, [], rfl⟩

theorem Yields.bind {f : α → StateM Registry β} {b : β} (hm : Yields m a) (hf : Yields (f a) b) : Yields (m >>= f) b := by
  intro r hr
  obtain ⟨hresult, earlier, hleft⟩ := hm r hr
  obtain ⟨hresult', later, hleft'⟩ := hf _ (hr.afterLookUps earlier)
  have hrun : (m >>= f).run r = (f a).run (r.afterLookUps earlier) := by
    rw [← hresult, ← hleft]
    rfl
  rw [hrun]
  exact ⟨hresult', earlier ++ later, by rw [hleft', afterLookUps_append]⟩

theorem yields_mapM {f : α → StateM Registry β} {g : α → β} (hf : ∀ a, Yields (f a) (g a)) (l : List α) :
    Yields (l.mapM f) (l.map g) := by
  induction l with
  | nil => exact yields_pure []
  | cons a rest ih =>
    rw [List.mapM_cons, List.map_cons]
    exact (hf a).bind (ih.bind (yields_pure _))

/-! ### Converters -/

theorem yields_converterOf (type : PropertyType) : Yields (converterOf type) type.converter :=
  fun _ hr => ⟨(hr.lookUp type).1, [type], rfl⟩

theorem yields_toStore (type : PropertyType) (v : Value) : Yields (toStore type v) (type.converter.toStore v) :=
  (yields_converterOf type).bind (yields_pure _)

theorem yields_fromStore (type : PropertyType) (v : StoreValue) :
    Yields (fromStore type v) (type.converter.fromStore v) := (yields_converterOf type).bind (yields_pure _)

/-! ### Records and documents -/

variable (ps : Properties)

theorem yields_loadField (field : String × StoreValue) :
    Yields (loadField ps field) (ps.loadField field.1 field.2) := by
  rw [loadField, Properties.loadField]
  cases ps.ofField? field.1 with
  | some p => exact (yields_fromStore p.type field.2).bind (yields_pure _)
  | none => exact yields_pure _

theorem yields_load (d : Document) : Yields (load ps d) (ps.load d) :=
  (yields_mapM (yields_loadField ps) d).bind (yields_pure _)

theorem yields_dumpProperty (a : Attributes) (p : Property) :
    Yields (dumpProperty a p) (Properties.dumpProperty a p) := by
  rw [dumpProperty, Properties.dumpProperty]
  cases a.get? p.name with
  | some v => exact (yields_toStore p.type v).bind (yields_pure _)
  | none => exact yields_pure _

theorem yields_dump (a : Attributes) : Yields (dump ps a) (ps.dump a) := by
  have hfields : ps.dump a = Entries.ofList
      ((ps.declared.map (Properties.dumpProperty a)).filterMap id ++ (ps.undeclared a).mapValues Value.toStored) := by
    rw [List.filterMap_map, Function.id_comp]
    rfl
  rw [hfields]
  exact (yields_mapM (yields_dumpProperty a) ps.declared).bind (yields_pure _)

/-! ### Queries -/

theorem yields_toStoreField (name : String) (v : Value) : Yields (toStoreField ps name v) (ps.toStore name v) := by
  rw [toStoreField, Properties.toStore]
  cases ps.type? name with
  | some type => exact yields_toStore type v
  | none => exact yields_pure _

theorem yields_operand (op : Operator) (v : Value) : Yields (operand ps op v) (Query.operand ps op v) := by
  unfold operand Query.operand
  split
  · exact yields_pure _
  · cases v with
    | array items =>
      dsimp only
      split
      · exact (yields_mapM (yields_toStoreField ps op.field) items).bind (yields_pure _)
      · exact yields_toStoreField ps op.field _
    | _ => exact yields_toStoreField ps op.field _

theorem yields_selectorEntry (c : Subject × Value) : Yields (selectorEntry ps c) (Query.selectorEntry ps c) := by
  obtain ⟨subject, v⟩ := c
  cases subject with
  | field name => exact ((yields_toStoreField ps name v).bind (yields_pure _)).bind (yields_pure _)
  | operator op => exact ((yields_operand ps op v).bind (yields_pure _)).bind (yields_pure _)

theorem yields_selectorEntries (cs : Conditions) :
    Yields (selectorEntries ps cs) (cs.mapM (Query.selectorEntry ps)) := by
  induction cs with
  | nil => exact yields_pure _
  | cons c rest ih =>
    rw [selectorEntries, List.mapM_cons]
    refine (yields_selectorEntry ps c).bind ?_
    cases Query.selectorEntry ps c with
    | error e => exact yields_pure _
    | ok entry => exact ih.bind (yields_pure _)

theorem yields_compile (c : Criteria) : Yields (compile ps c) (Query.compile ps c) := by
  refine (yields_selectorEntries ps (c.conditions.getD [])).bind ?_
  rw [Query.compile, Query.selectorOf]
  cases (c.conditions.getD []).mapM (Query.selectorEntry ps) with
  | error e => exact yields_pure _
  | ok entries => exact yields_pure _

/-! ### Seen from outside -/

/-- What is seen of a registry that was asked for some types since it held the built-in ones only. -/
structure Shows (earlier : List PropertyType) (r : Registry) : Prop where
  /-- It holds the built-in types and what it was asked for, with the inner types, and nothing else. -/
  contains : ∀ type, r.contains type = true ↔ type ∈ Registry.builtIn ∨ ∃ asked ∈ earlier, type ∈ asked.withInner
  size : r.size = (Registry.builtIn ++ earlier.flatMap PropertyType.withInner).toFinset.card
  builtIn : ∀ type ∈ Registry.builtIn, (r.lookUp type).2 = r
  /-- Nothing that it holds is ever dropped or replaced. -/
  kept : ∀ type found later, r.get? type = some found → (r.afterLookUps later).get? type = some found
  /-- Two look-ups find one converter just if they are of one type. -/
  identity : ∀ a b between,
    ((r.lookUp a).1.serial = (((r.lookUp a).2.afterLookUps between).lookUp b).1.serial ↔ a = b) ∧
      (a = b → (((r.lookUp a).2.afterLookUps between).lookUp b).1 = (r.lookUp a).1)
  toStore : ∀ type, (r.lookUp type).1.converter.toStore = type.stored
  fromStore : ∀ type, (r.lookUp type).1.converter.fromStore = type.loaded
  /-- Compiling gives what the types ask for, and leaves a registry that look-ups leave; so do loading and dumping. -/
  compile : ∀ ps c, ((compile ps c).run r).1 = Query.compile ps c ∧
    ∃ later, ((compile ps c).run r).2 = r.afterLookUps later
  load : ∀ ps d, ((load ps d).run r).1 = ps.load d ∧ ∃ later, ((load ps d).run r).2 = r.afterLookUps later
  dump : ∀ ps a, ((dump ps a).run r).1 = ps.dump a ∧ ∃ later, ((dump ps a).run r).2 = r.afterLookUps later

theorem types_initial : initial.types = builtIn := by decide +kernel

theorem mem_types_afterLookUps (earlier : List PropertyType) (type : PropertyType) :
    type ∈ (initial.afterLookUps earlier).types ↔ type ∈ builtIn ∨ ∃ asked ∈ earlier, type ∈ asked.withInner := by
  rw [(wellKept_initial.afterLookUps earlier).2.2, types_initial]

theorem size_afterLookUps (earlier : List PropertyType) : (initial.afterLookUps earlier).size =
    (builtIn ++ earlier.flatMap PropertyType.withInner).toFinset.card := by
  have htypes : (initial.afterLookUps earlier).types.toFinset =
      (builtIn ++ earlier.flatMap PropertyType.withInner).toFinset := by
    ext type
    rw [List.mem_toFinset, mem_types_afterLookUps, List.mem_toFinset, List.mem_append, List.mem_flatMap]
  rw [← htypes, List.toFinset_card_of_nodup (wellKept_afterLookUps earlier).distinct]
  exact (List.length_map _).symm

/-- Whatever a registry is asked for, it holds those types and their inner types, each once and for good, tells types
apart, and converts by the structure of the type; nothing that is done with it depends on what it was asked before. -/
theorem cache_transparent (earlier : List PropertyType) : Shows earlier (initial.afterLookUps earlier) := by
  have hkept := wellKept_afterLookUps earlier
  refine ⟨?_, size_afterLookUps earlier, ?_, ?_, hkept.serial_eq_iff, ?_, ?_, ?_, ?_, ?_⟩
  · exact fun type => contains_iff.trans (mem_types_afterLookUps earlier type)
  · intro type htype
    obtain ⟨found, hget⟩ := Option.isSome_iff_exists.mp (hkept.sound.builtIn type htype)
    rw [lookUp_of_get? hget]
  · exact fun type found later hget => get?_of_prefix (hkept.afterLookUps later).2.1 hget
  · exact fun type => by rw [(hkept.sound.lookUp type).1, PropertyType.toStore_converter]
  · exact fun type => by rw [(hkept.sound.lookUp type).1, PropertyType.fromStore_converter]
  · exact fun ps c => yields_compile ps c _ hkept.sound
  · exact fun ps d => yields_load ps d _ hkept.sound
  · exact fun ps a => yields_dump ps a _ hkept.sound

/-! ### A custom type that is called like a built-in one -/

theorem custom_string_apart :
    let r := initial.afterLookUps [.map (.array (.custom "String"))]
    r.size = 13 ∧ r.contains (.custom "String") = true ∧
      (r.lookUp .string).1.serial ≠ ((r.lookUp .string).2.lookUp (.custom "String")).1.serial ∧
      (r.lookUp .string).1.converter.toStore (.integer 7) = .string "7" ∧
      (r.lookUp (.custom "String")).1.converter.toStore (.integer 7) = .int64 7 := by
  have hshows := cache_transparent [.map (.array (.custom "String"))]
  refine ⟨hshows.size.trans (by decide +kernel), (hshows.contains _).mpr (.inr ⟨_, List.mem_cons_self, ?_⟩), ?_, ?_, ?_⟩
  · decide +kernel
  · exact fun hserial => absurd ((hshows.identity _ _ []).1.mp hserial) (by decide)
  · rw [hshows.toStore]
    rfl
  · rw [hshows.toStore]
    rfl

end Registry

end DocQuery
