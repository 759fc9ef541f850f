import Mathlib.Data.List.TakeWhile
import DocQuery.Double.Reading
import DocQuery.Proofs.Text.Integer

/-!
# The texts that are read as doubles

A number is written as digits with a point among them or none, an exponent behind them or none, and a sign in front or
none. The reader takes these texts and rounds the number, and besides them it takes the words for infinity and for what
is not a number. Neither kind is ever taken for the other, because a number starts with a digit or the point.
-/

namespace DocQuery.Double

open Text

variable {cs whole point fraction power rest : List Char} {negative : Bool} {d : Decimal} {e : Int}

/-- The point with the digits behind it, which may both be absent. -/
inductive IsFraction : List Char → List Char → Prop
  | absent : IsFraction [] []
  | present {fraction : List Char} : AreDigits fraction → IsFraction ('.' :: fraction) fraction

/-- The exponent behind a number: the letter and an integer, or nothing. -/
inductive IsPower : List Char → Int → Prop
  | absent : IsPower [] 0
  | present {c : Char} {cs : List Char} {e : Int} : c = 'e' ∨ c = 'E' → DenotesInteger cs e → IsPower (c :: cs) e

/-- The text is a number without a sign. At least one digit stands before the point or behind it. -/
def DenotesDecimal (cs : List Char) (d : Decimal) : Prop :=
  ∃ whole point fraction power e, AreDigits whole ∧ IsFraction point fraction ∧ IsPower power e ∧ whole ++ fraction ≠ [] ∧
    cs = whole ++ point ++ power ∧ d = ⟨Nat.ofDigitChars 10 (whole ++ fraction) 0, e - fraction.length⟩

/-- The text is a number: a sign or none, and then a number without one. -/
def DenotesNumber (cs : List Char) (negative : Bool) (d : Decimal) : Prop :=
  ∃ sign body, IsSign sign negative ∧ DenotesDecimal body d ∧ cs = sign ++ body

/-- The words for infinity, in lower case. -/
def infinityWords : List (List Char) := ["inf".toList, "infinity".toList]

/-- The word for what is not a number, in lower case. -/
def nanWord : List Char := "nan".toList

/-- The text is one of the words, in any case. -/
def SpellsWord (cs : List Char) : Prop := lowerAscii cs ∈ infinityWords ∨ lowerAscii cs = nanWord

/-- The text is a word for infinity, in any case, with a sign or none. -/
def NamesInfinity (cs : List Char) (negative : Bool) : Prop :=
  ∃ sign body, IsSign sign negative ∧ lowerAscii body ∈ infinityWords ∧ cs = sign ++ body

/-- The text is the word for what is not a number, in any case, with a sign or none. -/
def NamesNaN (cs : List Char) : Prop :=
  ∃ sign negative body, IsSign sign negative ∧ lowerAscii body = nanWord ∧ cs = sign ++ body

/-- The text is a word that is read as a double without being a number. -/
def NamesDouble (cs : List Char) : Prop := (∃ negative, NamesInfinity cs negative) ∨ NamesNaN cs

/-! ### Exponents -/

theorem exponent?_cons {c : Char} (hletter : c = 'e' ∨ c = 'E') (cs : List Char) :
    exponent? (c :: cs) = (natural? (splitSign cs).2).map (signed (splitSign cs).1) := by
  rw [exponent?, if_pos hletter]
  cases natural? (splitSign cs).2 <;> rfl

theorem exponent?_eq_some_iff : exponent? cs = some e ↔ IsPower cs e := by
  cases cs with
  | nil =>
    rw [exponent?, Option.some.injEq]
    constructor
    · rintro rfl
      exact .absent
    · rintro ⟨⟩
      rfl
  | cons c cs =>
    by_cases hletter : c = 'e' ∨ c = 'E'
    · rw [exponent?_cons hletter, signed_natural?_eq_some_iff]
      constructor
      · exact .present hletter
      · rintro ⟨⟩
        assumption
    · rw [exponent?, if_neg hletter]
      constructor
      · exact nofun
      · rintro ⟨⟩
        contradiction

/-! ### Decimal numbers -/

theorem IsPower.endsDigits (hpower : IsPower power e) : EndsDigits power := by
  cases hpower with
  | absent => exact nofun
  | present hletter _ =>
    intro c hc
    cases hc
    rcases hletter with rfl | rfl <;> rfl

theorem IsFraction.endsDigits_append (hfraction : IsFraction point fraction) (hpower : IsPower power e) :
    EndsDigits (point ++ power) := by
  cases hfraction with
  | absent => exact hpower.endsDigits
  | present _ =>
    intro c hc
    cases hc
    rfl

theorem dropWhile_isDigit_append (hwhole : AreDigits whole) (hrest : EndsDigits rest) :
    (whole ++ rest).dropWhile Char.isDigit = rest := by
  have hsplit := (whole ++ rest).takeWhile_append_dropWhile (p := Char.isDigit)
  rw [takeWhile_isDigit_append hwhole hrest] at hsplit
  exact List.append_cancel_left hsplit

/-- The digits behind the point of a text, and what follows them. -/
def splitFraction : List Char → List Char × List Char
  | '.' :: after => (after.takeWhile Char.isDigit, after.dropWhile Char.isDigit)
  | after => ([], after)

theorem splitFraction_append (hfraction : IsFraction point fraction) (hpower : IsPower power e) :
    splitFraction (point ++ power) = (fraction, power) := by
  cases hfraction with
  | absent =>
    cases hpower with
    | absent => rfl
    | present hletter _ => rcases hletter with rfl | rfl <;> rfl
  | present hdigits =>
    change (List.takeWhile _ (fraction ++ power), List.dropWhile _ (fraction ++ power)) = _
    rw [takeWhile_isDigit_append hdigits hpower.endsDigits, dropWhile_isDigit_append hdigits hpower.endsDigits]

theorem exists_splitFraction (cs : List Char) :
    ∃ point, IsFraction point (splitFraction cs).1 ∧ cs = point ++ (splitFraction cs).2 := by
  unfold splitFraction
  split
  · next after =>
    refine ⟨_, .present fun c hc => List.mem_takeWhile_imp hc, ?_⟩
    rw [List.cons_append, List.takeWhile_append_dropWhile]
  · exact ⟨_, .absent, rfl⟩

theorem decimal?_eq (cs : List Char) : decimal? cs =
    let whole := cs.takeWhile Char.isDigit
    let split := splitFraction (cs.dropWhile Char.isDigit)
    if whole.isEmpty && split.1.isEmpty then none
    else (exponent? split.2).map fun e => ⟨Nat.ofDigitChars 10 (whole ++ split.1) 0, e - split.1.length⟩ :=
  rfl

theorem decimal?_eq_some_iff : decimal? cs = some d ↔ DenotesDecimal cs d := by
  rw [decimal?_eq]
  simp only [Option.ite_none_left_eq_some, Option.map_eq_some_iff, exponent?_eq_some_iff, Bool.and_eq_true,
    List.isEmpty_iff, ← List.append_eq_nil_iff]
  constructor
  · rintro ⟨hne, e, hpower, rfl⟩
    obtain ⟨point, hfraction, hrest⟩ := exists_splitFraction (cs.dropWhile Char.isDigit)
    refine ⟨_, point, _, _, e, fun c hc => List.mem_takeWhile_imp hc, hfraction, hpower, hne, ?_, rfl⟩
    rw [List.append_assoc, ← hrest, List.takeWhile_append_dropWhile]
  · rintro ⟨whole, point, fraction, power, e, hwhole, hfraction, hpower, hne, rfl, rfl⟩
    have hends := hfraction.endsDigits_append hpower
    rw [List.append_assoc, takeWhile_isDigit_append hwhole hends, dropWhile_isDigit_append hwhole hends,
      splitFraction_append hfraction hpower]
    exact ⟨hne, e, hpower, rfl⟩

/-! ### Words and numbers -/

theorem DenotesDecimal.exists_head (hd : DenotesDecimal cs d) : ∃ c rest, cs = c :: rest ∧ (c.isDigit = true ∨ c = '.') := by
  obtain ⟨whole, point, fraction, power, e, hwhole, hfraction, -, hne, rfl, -⟩ := hd
  cases whole with
  | cons c whole => exact ⟨c, _, rfl, .inl (hwhole c List.mem_cons_self)⟩
  | nil =>
    cases hfraction with
    | absent => exact absurd rfl hne
    | present _ => exact ⟨'.', _, rfl, .inr rfl⟩

theorem DenotesDecimal.startsUnsigned (hd : DenotesDecimal cs d) : StartsUnsigned cs := by
  obtain ⟨c, rest, rfl, hc⟩ := hd.exists_head
  intro c' hc'
  cases hc'
  constructor <;> rintro rfl <;> rcases hc with hdigit | hpoint <;> contradiction

theorem toLower_of_isDigit {c : Char} (hc : c.isDigit = true) : c.toLower = c :=
  (toLower_eq_iff (Nat.lt_of_le_of_lt (toNat_of_isDigit hc).2 (by decide))).mpr rfl

/-- The first letter of a word, in lower case. -/
theorem SpellsWord.exists_head (hword : SpellsWord cs) :
    ∃ c rest, cs = c :: rest ∧ (c.toLower = 'i' ∨ c.toLower = 'n') := by
  cases cs with
  | nil => simp [SpellsWord, lowerAscii, infinityWords, nanWord] at hword
  | cons c rest =>
    refine ⟨c, rest, rfl, ?_⟩
    simp only [SpellsWord, infinityWords, List.mem_cons, List.not_mem_nil, or_false] at hword
    rcases hword with (hword | hword) | hword
    · exact .inl (List.cons.inj hword).1
    · exact .inl (List.cons.inj hword).1
    · exact .inr (List.cons.inj hword).1

theorem SpellsWord.startsUnsigned (hword : SpellsWord cs) : StartsUnsigned cs := by
  obtain ⟨c, rest, rfl, hletter⟩ := hword.exists_head
  intro c' hc'
  cases hc'
  constructor <;> rintro rfl <;> rcases hletter with hletter | hletter <;> cases hletter

theorem DenotesDecimal.not_word (hd : DenotesDecimal cs d) : ¬ SpellsWord cs := by
  intro hword
  obtain ⟨c, rest, rfl, hc⟩ := hd.exists_head
  obtain ⟨_, _, heq, hletter⟩ := hword.exists_head
  cases heq
  rcases hc with hdigit | rfl
  · rw [toLower_of_isDigit hdigit] at hletter
    rcases hletter with rfl | rfl <;> cases hdigit
  · rcases hletter with hletter | hletter <;> cases hletter

/-! ### Reading -/

theorem any_eq_true_iff : ["inf", "infinity"].any (·.toList = cs) = true ↔ cs ∈ infinityWords := by
  simp only [infinityWords, List.any_cons, List.any_nil, Bool.or_false, Bool.or_eq_true, decide_eq_true_eq, List.mem_cons,
    List.not_mem_nil, or_false]
  exact or_congr eq_comm eq_comm

theorem ofText?_eq (cs : List Char) : ofText? cs =
    if lowerAscii (splitSign cs).2 ∈ infinityWords then some (ofMagnitude (splitSign cs).1 infinityBits)
    else if lowerAscii (splitSign cs).2 = nanWord then some nan
    else (decimal? (splitSign cs).2).map (ofDecimal (splitSign cs).1) := by
  simp only [← any_eq_true_iff]
  rfl

theorem ofText?_of_number (hnumber : DenotesNumber cs negative d) : ofText? cs = some (ofDecimal negative d) := by
  obtain ⟨sign, body, hsign, hd, rfl⟩ := hnumber
  obtain ⟨hinfinity, hnan⟩ := not_or.mp hd.not_word
  rw [ofText?_eq, splitSign_append hsign hd.startsUnsigned, if_neg hinfinity, if_neg hnan, decimal?_eq_some_iff.mpr hd,
    Option.map_some]

theorem ofText?_of_infinity (hinfinity : NamesInfinity cs negative) :
    ofText? cs = some (ofMagnitude negative infinityBits) := by
  obtain ⟨sign, body, hsign, hword, rfl⟩ := hinfinity
  rw [ofText?_eq, splitSign_append hsign (SpellsWord.startsUnsigned (.inl hword)), if_pos hword]

theorem ofText?_of_nan (hnan : NamesNaN cs) : ofText? cs = some nan := by
  obtain ⟨sign, negative, body, hsign, hword, rfl⟩ := hnan
  have hother : lowerAscii body ∉ infinityWords := by
    rw [hword]
    decide
  rw [ofText?_eq, splitSign_append hsign (SpellsWord.startsUnsigned (.inr hword)), if_neg hother, if_pos hword]

/-- What is no number and none of the words is not read. -/
theorem ofText?_eq_none (hnumber : ∀ negative d, ¬ DenotesNumber cs negative d)
    (hinfinity : ∀ negative, ¬ NamesInfinity cs negative) (hnan : ¬ NamesNaN cs) : ofText? cs = none := by
  obtain ⟨sign, hsign, hcs⟩ := exists_sign cs
  rw [ofText?_eq, if_neg fun hword => hinfinity _ ⟨sign, _, hsign, hword, hcs⟩,
    if_neg fun hword => hnan ⟨sign, _, _, hsign, hword, hcs⟩, Option.map_eq_none_iff, Option.eq_none_iff_forall_ne_some]
  intro d hd
  exact hnumber _ d ⟨sign, _, hsign, decimal?_eq_some_iff.mp hd, hcs⟩

/-- A number is none of the words. -/
theorem DenotesNumber.not_named (hnumber : DenotesNumber cs negative d) : ¬ NamesDouble cs := by
  obtain ⟨sign, body, hsign, hd, rfl⟩ := hnumber
  rintro (⟨_, other, word, hother, hword, heq⟩ | ⟨other, _, word, hother, hword, heq⟩)
  · obtain ⟨-, rfl⟩ := hsign.cancel hd.startsUnsigned hother (SpellsWord.startsUnsigned (.inl hword)) heq
    exact hd.not_word (.inl hword)
  · obtain ⟨-, rfl⟩ := hsign.cancel hd.startsUnsigned hother (SpellsWord.startsUnsigned (.inr hword)) heq
    exact hd.not_word (.inr hword)

/-- An integer is a number without a point and an exponent. -/
theorem exists_number_of_integer {n : Int} (hn : DenotesInteger cs n) : ∃ negative d, DenotesNumber cs negative d := by
  obtain ⟨sign, negative, run, m, hsign, ⟨hne, hdigits, -⟩, rfl, -⟩ := hn
  refine ⟨negative, _, sign, run, hsign, ⟨run, [], [], [], 0, hdigits, .absent, .absent, ?_, ?_, rfl⟩, rfl⟩
  · rwa [List.append_nil]
  · rw [List.append_nil, List.append_nil]

end DocQuery.Double
