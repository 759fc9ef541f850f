/-!
# Outcomes

A computation that can fail ends with an error or a value. One that goes on after another fails where the first of
the two does, and going through a list fails at the first item that fails.
-/

namespace DocQuery

variable {ε α β : Type} {x : Except ε α} {e : ε}

theorem bind_eq_ok {f : α → Except ε β} {b : β} (hbind : x >>= f = .ok b) : ∃ a, x = .ok a ∧ f a = .ok b := by
  cases x with
  | error e => cases hbind
  | ok a => exact ⟨a, rfl, hbind⟩

theorem bind_eq_error_iff {f : α → Except ε β} : x >>= f = .error e ↔ x = .error e ∨ ∃ a, x = .ok a ∧ f a = .error e := by
  cases x with
  | error e' =>
    constructor
    · intro h
      cases h
      exact .inl rfl
    · rintro (h | ⟨a, ha, -⟩)
      · cases h
        rfl
      · cases ha
  | ok a =>
    constructor
    · exact fun h => .inr ⟨a, rfl, h⟩
    · rintro (h | ⟨b, hb, h⟩)
      · cases h
      · cases hb
        exact h

theorem map_eq_error_iff {f : α → β} : x.map f = .error e ↔ x = .error e := by
  cases x with
  | error e' => exact (Except.error.injEq e' e).to_iff.trans (Except.error.injEq e' e).symm.to_iff
  | ok a => exact ⟨nofun, nofun⟩

theorem map_eq_ok {f : α → β} {b : β} (hmap : x.map f = .ok b) : ∃ a, x = .ok a ∧ f a = b := by
  cases x with
  | error e => cases hmap
  | ok a => exact ⟨a, rfl, Except.ok.inj hmap⟩

theorem mapError_eq_ok {ε' : Type} {f : ε → ε'} {a : α} (hmap : x.mapError f = .ok a) : x = .ok a := by
  cases x with
  | error e => cases hmap
  | ok b => exact congrArg Except.ok (Except.ok.inj hmap)

theorem exists_ok_iff : (∃ a, x = .ok a) ↔ ∀ e, x ≠ .error e := by
  cases x with
  | error e => exact ⟨nofun, fun h => absurd rfl (h e)⟩
  | ok a => exact ⟨fun _ => nofun, fun _ => ⟨a, rfl⟩⟩

theorem exists_map_ok_iff {f : α → β} : (∃ b, x.map f = .ok b) ↔ ∃ a, x = .ok a := by
  cases x with
  | error e => exact ⟨nofun, nofun⟩
  | ok a => exact ⟨fun _ => ⟨a, rfl⟩, fun _ => ⟨f a, rfl⟩⟩

theorem map_eq_bind (f : α → β) (x : Except ε α) : x.map f = x >>= fun a => .ok (f a) := by cases x <;> rfl

/-- What is done after two computations that end alike, and does alike, ends alike. -/
theorem mapError_bind_congr {ε' : Type} {describe : ε → ε'} {x y : Except ε α} {f g : α → Except ε β}
    (hfirst : x.mapError describe = y.mapError describe)
    (hthen : ∀ a, (f a).mapError describe = (g a).mapError describe) :
    (x >>= f).mapError describe = (y >>= g).mapError describe := by
  cases x with
  | error e =>
    cases y with
    | error e' => exact congrArg Except.error (Except.error.inj hfirst)
    | ok b => cases hfirst
  | ok a =>
    cases y with
    | error e' => cases hfirst
    | ok b => cases hfirst; exact hthen a

/-! ### Going through a list -/

variable {f : α → Except ε β} {a : α} {rest l : List α}

theorem mapM_cons_eq_ok {bs : List β} (hmap : (a :: rest).mapM f = .ok bs) :
    ∃ b bs', f a = .ok b ∧ rest.mapM f = .ok bs' ∧ bs = b :: bs' := by
  rw [List.mapM_cons] at hmap
  obtain ⟨b, hb, hrest⟩ := bind_eq_ok hmap
  obtain ⟨bs', hbs', hdone⟩ := bind_eq_ok hrest
  cases hdone
  exact ⟨b, bs', hb, hbs', rfl⟩

theorem mapM_cons_eq_error_iff :
    (a :: rest).mapM f = .error e ↔ f a = .error e ∨ (∃ b, f a = .ok b) ∧ rest.mapM f = .error e := by
  rw [List.mapM_cons, bind_eq_error_iff, ← exists_and_right]
  refine or_congr Iff.rfl (exists_congr fun b => and_congr Iff.rfl ?_)
  rw [bind_eq_error_iff]
  exact ⟨fun h => h.resolve_right nofun, .inl⟩

theorem mapM_eq_error_iff :
    l.mapM f = .error e ↔
      ∃ (i : Nat) (a : α), l[i]? = some a ∧ f a = .error e ∧ ∀ j < i, ∀ b, l[j]? = some b → ∃ c, f b = .ok c := by
  induction l with
  | nil =>
    constructor
    · intro h
      cases h
    · rintro ⟨i, a, ha, -⟩
      cases ha
  | cons a rest ih =>
    rw [mapM_cons_eq_error_iff, ih]
    constructor
    · rintro (ha | ⟨hok, i, c, hc, hfails, hbefore⟩)
      · exact ⟨0, a, rfl, ha, fun j hj => absurd hj (Nat.not_lt_zero j)⟩
      · refine ⟨i + 1, c, hc, hfails, fun j hj b hb => ?_⟩
        cases j with
        | zero =>
          cases hb
          exact hok
        | succ j => exact hbefore j (Nat.lt_of_succ_lt_succ hj) b hb
    · rintro ⟨i, c, hc, hfails, hbefore⟩
      cases i with
      | zero =>
        cases hc
        exact .inl hfails
      | succ i =>
        have hafter : ∀ j < i, ∀ b, rest[j]? = some b → ∃ d, f b = .ok d :=
          fun j hj b hb => hbefore (j + 1) (Nat.succ_lt_succ hj) b hb
        exact .inr ⟨hbefore 0 (Nat.succ_pos i) a rfl, i, c, hc, hfails, hafter⟩

theorem mapM_ok_of_forall (hf : ∀ a ∈ l, ∃ b, f a = .ok b) : ∃ bs, l.mapM f = .ok bs := by
  rw [exists_ok_iff]
  intro e herror
  obtain ⟨i, a, ha, hfails, -⟩ := mapM_eq_error_iff.mp herror
  obtain ⟨b, hb⟩ := hf a (List.mem_of_getElem? ha)
  rw [hb] at hfails
  cases hfails

theorem exists_mapM_ok_iff : (∃ bs, l.mapM f = .ok bs) ↔ ∀ a ∈ l, ∃ b, f a = .ok b := by
  refine ⟨?_, mapM_ok_of_forall⟩
  rintro ⟨bs, hbs⟩
  induction l generalizing bs with
  | nil => exact nofun
  | cons a rest ih =>
    obtain ⟨b, bs', hb, hrest, -⟩ := mapM_cons_eq_ok hbs
    exact List.forall_mem_cons.mpr ⟨⟨b, hb⟩, ih bs' hrest⟩

theorem mapM_length_of_ok {bs : List β} (hmap : l.mapM f = .ok bs) : bs.length = l.length := by
  induction l generalizing bs with
  | nil =>
    cases hmap
    rfl
  | cons a rest ih =>
    obtain ⟨b, bs', -, hrest, rfl⟩ := mapM_cons_eq_ok hmap
    rw [List.length_cons, List.length_cons, ih hrest]

/-- Going through a list is going through its start and then through the rest. -/
theorem mapM_split (n : Nat) (l : List α) :
    l.mapM f = (l.take n).mapM f >>= fun bs => ((l.drop n).mapM f).map (bs ++ ·) := by
  have hsplit : l.mapM f = (l.take n ++ l.drop n).mapM f := by rw [List.take_append_drop]
  rw [hsplit, List.mapM_append]
  cases (l.take n).mapM f with
  | error e => rfl
  | ok bs => cases (l.drop n).mapM f <;> rfl

theorem mapM_take_of_ok {bs : List β} (hmap : l.mapM f = .ok bs) (n : Nat) : (l.take n).mapM f = .ok (bs.take n) := by
  induction l generalizing bs n with
  | nil =>
    cases hmap
    cases n <;> rfl
  | cons a rest ih =>
    obtain ⟨b, bs', hb, hrest, rfl⟩ := mapM_cons_eq_ok hmap
    cases n with
    | zero => rfl
    | succ n =>
      rw [List.take_succ_cons, List.mapM_cons, hb, ih hrest n]
      rfl

theorem mapM_drop_of_ok {bs : List β} (hmap : l.mapM f = .ok bs) (n : Nat) : (l.drop n).mapM f = .ok (bs.drop n) := by
  induction l generalizing bs n with
  | nil =>
    cases hmap
    cases n <;> rfl
  | cons a rest ih =>
    obtain ⟨b, bs', -, hrest, rfl⟩ := mapM_cons_eq_ok hmap
    cases n with
    | zero => exact hmap
    | succ n => exact ih hrest n

end DocQuery
