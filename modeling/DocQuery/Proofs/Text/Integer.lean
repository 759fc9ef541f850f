import DocQuery.Proofs.Text.Numeral

/-!
# Integers with a sign

An integer is written as digits, with a sign in front of them or none. The reader takes just these texts, and for 64 bits
just those of the integers that fit. Leading zeros and a plus sign are allowed, so one integer has many texts.
-/

namespace DocQuery.Text

variable {cs sign body : List Char} {negative : Bool} {m : Nat} {n : Int}

/-- A sign or none, and whether it is a minus sign. -/
inductive IsSign : List Char → Bool → Prop
  | absent : IsSign [] false
  | plus : IsSign ['+'] false
  | minus : IsSign ['-'] true

/-- No sign stands at the front of the text. -/
def StartsUnsigned (cs : List Char) : Prop := ∀ c ∈ cs.head?, c ≠ '-' ∧ c ≠ '+'

def AreDigits (cs : List Char) : Prop := ∀ c ∈ cs, c.isDigit = true

/-- The text is one or more digits, and the number that they denote. -/
def DenotesNatural (cs : List Char) (m : Nat) : Prop := cs ≠ [] ∧ AreDigits cs ∧ Nat.ofDigitChars 10 cs 0 = m

/-- The integer of the given sign and absolute value. -/
def signed (negative : Bool) (m : Nat) : Int := if negative then -(m : Int) else m

/-- The text is an integer: a sign or none, and then digits. -/
def DenotesInteger (cs : List Char) (n : Int) : Prop :=
  ∃ sign negative run m, IsSign sign negative ∧ DenotesNatural run m ∧ cs = sign ++ run ∧ n = signed negative m

/-! ### Signs -/

theorem exists_sign (cs : List Char) : ∃ sign, IsSign sign (splitSign cs).1 ∧ cs = sign ++ (splitSign cs).2 := by
  unfold splitSign
  split
  · exact ⟨_, .minus, rfl⟩
  · exact ⟨_, .plus, rfl⟩
  · exact ⟨_, .absent, rfl⟩

theorem splitSign_append (hsign : IsSign sign negative) (hbody : StartsUnsigned body) :
    splitSign (sign ++ body) = (negative, body) := by
  cases hsign with
  | plus | minus => rfl
  | absent =>
    rw [List.nil_append, splitSign]
    · rintro rest rfl
      exact (hbody '-' rfl).1 rfl
    · rintro rest rfl
      exact (hbody '+' rfl).2 rfl

/-- A text has a sign in one way only. -/
theorem IsSign.cancel {other word : List Char} {minus : Bool} (hsign : IsSign sign negative) (hbody : StartsUnsigned body)
    (hother : IsSign other minus) (hword : StartsUnsigned word) (heq : sign ++ body = other ++ word) :
    negative = minus ∧ body = word := by
  have hsplit := splitSign_append hsign hbody
  rw [heq, splitSign_append hother hword] at hsplit
  exact ⟨(Prod.mk.inj hsplit).1.symm, (Prod.mk.inj hsplit).2.symm⟩

theorem AreDigits.startsUnsigned (hcs : AreDigits cs) : StartsUnsigned cs := by
  intro c hc
  have hdigit := hcs c (List.mem_of_mem_head? hc)
  constructor <;> rintro rfl <;> cases hdigit

/-! ### Reading -/

theorem natural?_eq_some_iff : natural? cs = some m ↔ DenotesNatural cs m := by
  simp [natural?, DenotesNatural, AreDigits, and_assoc]

theorem signed_natural?_eq_some_iff :
    (natural? (splitSign cs).2).map (signed (splitSign cs).1) = some n ↔ DenotesInteger cs n := by
  simp only [Option.map_eq_some_iff, natural?_eq_some_iff]
  constructor
  · rintro ⟨m, hm, rfl⟩
    obtain ⟨sign, hsign, hcs⟩ := exists_sign cs
    exact ⟨sign, _, _, m, hsign, hm, hcs, rfl⟩
  · rintro ⟨sign, negative, run, m, hsign, hm, rfl, rfl⟩
    rw [splitSign_append hsign hm.2.1.startsUnsigned]
    exact ⟨m, hm, rfl⟩

theorem int64?_eq (cs : List Char) : int64? cs = ((natural? (splitSign cs).2).map (signed (splitSign cs).1)).bind fun n =>
    if Int64.minValue.toInt ≤ n ∧ n ≤ Int64.maxValue.toInt then some (Int64.ofInt n) else none := by
  rw [Option.bind_map]
  rfl

/-- The texts that are read as 64-bit integers are those of the integers with 64 bits. -/
theorem int64?_eq_some_iff {i : Int64} : int64? cs = some i ↔ DenotesInteger cs i.toInt := by
  simp only [int64?_eq, Option.bind_eq_some_iff, signed_natural?_eq_some_iff, Option.ite_none_right_eq_some,
    Option.some.injEq]
  constructor
  · rintro ⟨n, hn, ⟨hlow, hhigh⟩, rfl⟩
    rwa [Int64.toInt_ofInt_of_le hlow (Int.lt_of_le_of_lt hhigh (by decide))]
  · intro hi
    exact ⟨i.toInt, hi, ⟨i.le_toInt, Int.le_of_lt_add_one i.toInt_lt⟩, Int64.ofInt_toInt i⟩

end DocQuery.Text
