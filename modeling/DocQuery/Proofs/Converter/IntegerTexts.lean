import DocQuery.Proofs.Double.Nearest
import DocQuery.Proofs.Double.Reading
import DocQuery.Proofs.Double.Truncation
import DocQuery.Proofs.Query.PlainConditions
import DocQuery.Proofs.Text.Words

/-!
# Texts given to an integer property

A text that is a 64-bit integer is stored as that integer, and one that is another number as the nearest double, cut off
and clamped. What is no number becomes null, with one exception: the words for infinity and for what is not a number are
read as doubles too, and cutting these off gives an integer that the text does not denote. Conditions on the property ask
for what is stored.
-/

namespace DocQuery

namespace Converter

open Text Double

variable {s : String} {core : List Char} {negative : Bool} {d : Decimal} {i : Int64}

/-- What is stored for a text, given without the blanks around it, is the number that the text denotes, and null if it
denotes none. -/
structure KeepsNumber (core : List Char) (stored : StoreValue) : Prop where
  integer : ∀ i : Int64, DenotesInteger core i.toInt → stored = .int64 i
  number : ∀ negative d, DenotesNumber core negative d → (∀ i : Int64, ¬ DenotesInteger core i.toInt) →
    ∃ x n, (∀ y : Double, y.IsNearest negative d.dividend d.divisor ↔ y = x) ∧ x.CutsOff n ∧ stored = .int64 n
  other : (∀ negative d, ¬ DenotesNumber core negative d) → stored = .null

/-! ### Reading -/

theorem readInteger_of_integer (htrims : Trims s.toList core) (hi : DenotesInteger core i.toInt) :
    readInteger s = some i := by
  rw [readInteger, trim_eq_iff.mpr htrims, int64?_eq_some_iff.mpr hi]

theorem readInteger_of_no_integer (htrims : Trims s.toList core) (hnone : ∀ i : Int64, ¬ DenotesInteger core i.toInt) :
    readInteger s = (ofText? core).map truncate := by
  have hread : int64? core = none := Option.eq_none_iff_forall_ne_some.mpr fun i hi => hnone i (int64?_eq_some_iff.mp hi)
  rw [readInteger, trim_eq_iff.mpr htrims, hread]

theorem no_number_of_named (hnamed : NamesDouble core) (negative : Bool) (d : Decimal) : ¬ DenotesNumber core negative d :=
  fun hnumber => hnumber.not_named hnamed

theorem no_integer_of_no_number (hnone : ∀ negative d, ¬ DenotesNumber core negative d) (i : Int64) :
    ¬ DenotesInteger core i.toInt := by
  intro hi
  obtain ⟨negative, d, hnumber⟩ := exists_number_of_integer hi
  exact hnone negative d hnumber

theorem no_integer_of_named (hnamed : NamesDouble core) (i : Int64) : ¬ DenotesInteger core i.toInt :=
  no_integer_of_no_number (no_number_of_named hnamed) i

/-! ### Storing -/

theorem storeInteger_text : toStore .integer (.string s) = ((readInteger s).map StoreValue.int64).getD .null := rfl

theorem storeInteger_of_double {x : Double} (htrims : Trims s.toList core)
    (hnone : ∀ i : Int64, ¬ DenotesInteger core i.toInt) (hx : ofText? core = some x) :
    toStore .integer (.string s) = .int64 x.truncate := by
  rw [storeInteger_text, readInteger_of_no_integer htrims hnone, hx]
  rfl

theorem storeInteger_infinity (htrims : Trims s.toList core) (hinfinity : NamesInfinity core negative) :
    toStore .integer (.string s) = .int64 (if negative then Int64.minValue else Int64.maxValue) := by
  have hnone := no_integer_of_named (.inl ⟨negative, hinfinity⟩)
  rw [storeInteger_of_double htrims hnone (ofText?_of_infinity hinfinity), truncate_infinity]

theorem storeInteger_nan (htrims : Trims s.toList core) (hnan : NamesNaN core) :
    toStore .integer (.string s) = .int64 0 := by
  rw [storeInteger_of_double htrims (no_integer_of_named (.inr hnan)) (ofText?_of_nan hnan)]
  rfl

theorem keepsNumber_iff (htrims : Trims s.toList core) :
    KeepsNumber core (toStore .integer (.string s)) ↔ ¬ NamesDouble core := by
  constructor
  · intro hkeeps hnamed
    have hnull := hkeeps.other (no_number_of_named hnamed)
    rcases hnamed with ⟨negative, hinfinity⟩ | hnan
    · cases (storeInteger_infinity htrims hinfinity).symm.trans hnull
    · cases (storeInteger_nan htrims hnan).symm.trans hnull
  · intro hunnamed
    refine ⟨fun i hi => ?_, fun negative d hnumber hnone => ?_, fun hnone => ?_⟩
    · rw [storeInteger_text, readInteger_of_integer htrims hi]
      rfl
    · exact ⟨ofDecimal negative d, _, fun _ => isNearest_decimal_iff,
        cutsOff_truncate (isNearest_ofDecimal negative d).number,
        storeInteger_of_double htrims hnone (ofText?_of_number hnumber)⟩
    · obtain ⟨hinfinity, hnan⟩ := not_or.mp hunnamed
      rw [storeInteger_text, readInteger_of_no_integer htrims (no_integer_of_no_number hnone),
        ofText?_eq_none hnone (not_exists.mp hinfinity) hnan]
      rfl

/-! ### Conditions -/

/-- The operand that an operator has from a text, where it takes values of the field. -/
theorem operand_text {ps : Properties} {field : String} {c : Comparator} (htype : ps.type? field = some .integer)
    (hc : c.takesLiteral = false) (s : String) :
    Query.operand ps ⟨field, c⟩ (.string s) = toStore .integer (.string s) := by
  rw [Query.operand, hc]
  · exact Properties.toStore_of_type htype _
  · exact nofun

/-- A text that is given to an integer property is stored as the number that it denotes, or as null, unless it is one of
the words that a double has besides: these are stored as integers. Conditions on the property, plain ones and operators,
ask for what is stored. -/
theorem integer_texts_keep_numbers (s : String) (core : List Char) (htrims : Trims s.toList core) :
    (KeepsNumber core (toStore .integer (.string s)) ↔ ¬ NamesDouble core) ∧
    (∀ negative, NamesInfinity core negative →
      toStore .integer (.string s) = .int64 (if negative then Int64.minValue else Int64.maxValue)) ∧
    (NamesNaN core → toStore .integer (.string s) = .int64 0) ∧
    ∀ (ps : Properties) (field : String), ps.type? field = some .integer →
      Query.selectorOf ps [(.field field, .string s)] = .ok [(ps.resolve field, toStore .integer (.string s))] ∧
      ∀ c : Comparator, c.takesLiteral = false →
        Query.operand ps ⟨field, c⟩ (.string s) = toStore .integer (.string s) := by
  refine ⟨keepsNumber_iff htrims, fun negative => storeInteger_infinity htrims, storeInteger_nan htrims,
    fun ps field htype => ⟨?_, fun c hc => operand_text htype hc s⟩⟩
  rw [Query.selectorOf_plain, Properties.toStore_of_type htype]
  rfl

theorem number_texts_kept :
    toStore .integer (.string " 12 ") = .int64 12 ∧
    (∃ x n, (∀ y : Double, y.IsNearest true 5 10 ↔ y = x) ∧ x.CutsOff n ∧ toStore .integer (.string "-.5") = .int64 n) ∧
    toStore .integer (.string "-Inf") = .int64 Int64.minValue := by
  refine ⟨?_, ?_, ?_⟩
  · have htwelve : DenotesInteger "12".toList (12 : Int64).toInt := int64?_eq_some_iff.mp (by decide +kernel)
    obtain ⟨negative, d, hnumber⟩ := exists_number_of_integer htwelve
    have hkept := (integer_texts_keep_numbers " 12 " "12".toList (trim_eq_iff.mp (by decide +kernel))).1
    exact (hkept.mpr hnumber.not_named).integer 12 htwelve
  · have hhalf : DenotesNumber "-.5".toList true ⟨5, -1⟩ :=
      ⟨['-'], ".5".toList, .minus, decimal?_eq_some_iff.mp (by decide +kernel), rfl⟩
    have hnone : int64? "-.5".toList = none := by decide +kernel
    have hkept := (integer_texts_keep_numbers "-.5" "-.5".toList (trim_eq_iff.mp (by decide +kernel))).1
    refine (hkept.mpr hhalf.not_named).number true ⟨5, -1⟩ hhalf fun i hi => ?_
    cases hnone.symm.trans (int64?_eq_some_iff.mpr hi)
  · have hinfinity : NamesInfinity "-Inf".toList true := ⟨['-'], "Inf".toList, .minus, by decide +kernel, rfl⟩
    exact (integer_texts_keep_numbers "-Inf" "-Inf".toList (trim_eq_iff.mp (by decide +kernel))).2.1 true hinfinity

/-- The word for what is not a number is stored as zero. -/
theorem nan_text_not_kept :
    ¬ ∀ (s : String) (core : List Char), Trims s.toList core → KeepsNumber core (toStore .integer (.string s)) := by
  intro hclaim
  have hnan : NamesNaN "nan".toList := ⟨[], false, "nan".toList, .absent, by decide +kernel, rfl⟩
  have htrims : Trims "nan".toList "nan".toList := trim_eq_iff.mp (by decide +kernel)
  have hnull := (hclaim "nan" "nan".toList htrims).other (no_number_of_named (.inr hnan))
  cases (storeInteger_nan htrims hnan).symm.trans hnull

end Converter

end DocQuery
