import Mathlib.Data.List.Induction
import DocQuery.Proofs.Text.Numeral
import DocQuery.Proofs.Text.Words

/-!
# What readers take from the front of a text

A reader that succeeds has taken characters from the front of a text and leaves the rest of it. So the last reader of a
chain sees the end of the whole text, and where that end is not blank, trimming takes nothing away from it.
-/

namespace DocQuery.Text

variable {cs rest tail : List Char} {least most n : Nat}

/-! ### Digits -/

/-- The digits that are taken stand at the front of the text. -/
theorem takeDigits_eq_some {run : List Char} (htake : takeDigits least most cs = some (run, rest)) :
    cs = run ++ rest ∧ (∀ c ∈ run, c.isDigit = true) ∧ least ≤ run.length ∧ run.length ≤ most := by
  simp only [takeDigits, Option.ite_none_right_eq_some, Option.some.injEq, Prod.mk.injEq] at htake
  obtain ⟨hleast, rfl, rfl⟩ := htake
  have htaken : (cs.take most).takeWhile Char.isDigit <+: cs := (List.takeWhile_prefix _).trans (List.take_prefix _ _)
  refine ⟨(List.prefix_iff_eq_append.mp htaken).symm, fun _ hc => List.mem_takeWhile_imp hc, hleast, ?_⟩
  exact Nat.le_trans (List.takeWhile_prefix _).length_le (List.length_take_le _ _)

theorem ofDigitChars_lt {run : List Char} (hrun : ∀ c ∈ run, c.isDigit = true) :
    Nat.ofDigitChars 10 run 0 < 10 ^ run.length := by
  induction run using List.reverseRecOn with
  | nil => decide
  | append_singleton run c ih =>
    have hc := toNat_of_isDigit (hrun c (by simp))
    have htens := ih fun d hd => hrun d (by simp [hd])
    have hlast : Nat.ofDigitChars 10 (run ++ [c]) 0 = 10 * Nat.ofDigitChars 10 run 0 + (c.toNat - 48) := by
      rw [Nat.ofDigitChars_append]
      rfl
    rw [hlast, List.length_append, List.length_singleton, Nat.pow_succ]
    omega

/-- A reader that only makes another value of what was taken leaves the same rest. -/
theorem exists_of_map_eq_some {α β : Type} {f : α × List Char → β × List Char} {taken : Option (α × List Char)} {b : β}
    (hmap : taken.map f = some (b, rest)) (hrest : ∀ p, (f p).2 = p.2) :
    ∃ a, taken = some (a, rest) ∧ (f (a, rest)).1 = b := by
  obtain ⟨⟨a, rest'⟩, rfl, heq⟩ := Option.map_eq_some_iff.mp hmap
  have hsame := hrest (a, rest')
  rw [heq] at hsame
  obtain rfl : rest = rest' := hsame
  exact ⟨a, rfl, congrArg Prod.fst heq⟩

/-- What is read after a reader is read from the rest that it leaves. -/
theorem exists_of_bind_eq_some {α β : Type} {f : α × List Char → Option β} {taken : Option (α × List Char)} {b : β}
    (hbind : taken.bind f = some b) : ∃ a rest, taken = some (a, rest) ∧ f (a, rest) = some b := by
  obtain ⟨⟨a, rest⟩, htaken, hrest⟩ := Option.bind_eq_some_iff.mp hbind
  exact ⟨a, rest, htaken, hrest⟩

theorem takeNumber_eq_some (htake : takeNumber least most cs = some (n, rest)) :
    ∃ run, cs = run ++ rest ∧ (∀ c ∈ run, c.isDigit = true) ∧ least ≤ run.length ∧ n < 10 ^ most := by
  rw [takeNumber] at htake
  obtain ⟨run, hdigits, rfl⟩ := exists_of_map_eq_some htake fun _ => rfl
  obtain ⟨hcs, hrun, hleast, hmost⟩ := takeDigits_eq_some hdigits
  refine ⟨run, hcs, hrun, hleast, ?_⟩
  exact Nat.lt_of_lt_of_le (ofDigitChars_lt hrun) (Nat.pow_le_pow_right (by decide) hmost)

/-! ### The rest of a text -/

theorem suffix_of_takeNumber (htake : takeNumber least most cs = some (n, rest)) : rest <:+ cs := by
  obtain ⟨run, rfl, -⟩ := takeNumber_eq_some htake
  exact List.suffix_append run rest

theorem suffix_of_takeChar {c : Char} (htake : takeChar c cs = some rest) : rest <:+ cs := by
  cases cs with
  | nil => cases htake
  | cons d cs =>
    simp only [takeChar, Option.ite_none_right_eq_some, Option.some.injEq] at htake
    rw [← htake.2]
    exact List.suffix_cons d cs

theorem skipBlanks_suffix (cs : List Char) : skipBlanks cs <:+ cs := List.dropWhile_suffix _

/-! ### The ends of a text -/

/-- The text ends with a character that is not blank. -/
def EndsFilled (cs : List Char) : Prop := ∃ c ∈ cs.getLast?, isBlank c = false

theorem EndsFilled.of_suffix (hend : EndsFilled tail) (htail : tail <:+ cs) : EndsFilled cs := by
  obtain ⟨c, hc, hfilled⟩ := hend
  obtain ⟨front, rfl⟩ := htail
  refine ⟨c, ?_, hfilled⟩
  rw [Option.mem_def] at hc ⊢
  rw [List.getLast?_append, hc]
  rfl

/-- Where the end is not blank, trimming is skipping the blanks at the start. -/
theorem trim_of_endsFilled (hend : EndsFilled cs) : trim cs = skipBlanks cs := by
  obtain ⟨c, hc, hfilled⟩ := hend
  obtain ⟨lead, hlead, hcs⟩ := exists_skipBlanks cs
  refine trim_eq_iff.mpr ⟨lead, [], hlead, nofun, ?_, startsFilled_skipBlanks cs, fun d hd => ?_⟩
  · rw [List.append_nil]
    exact hcs
  · rw [List.head?_reverse, Option.mem_def] at hd
    have hlast : cs.getLast? = some d := by
      calc cs.getLast? = (lead ++ skipBlanks cs).getLast? := congrArg List.getLast? hcs
        _ = some d := by rw [List.getLast?_append, hd, Option.some_or]
    rw [Option.mem_unique hlast hc, hfilled]

theorem startsFilled_of_takeNumber (hleast : 0 < least) (htake : takeNumber least most cs = some (n, rest)) :
    StartsFilled cs := by
  obtain ⟨run, rfl, hrun, hlength, -⟩ := takeNumber_eq_some htake
  obtain ⟨c, others, rfl⟩ := List.exists_cons_of_length_pos (Nat.lt_of_lt_of_le hleast hlength)
  intro d hd
  cases hd
  exact isBlank_of_isDigit (hrun c List.mem_cons_self)

theorem endsFilled_of_takeNumber (hleast : 0 < least) (htake : takeNumber least most cs = some (n, [])) :
    EndsFilled cs := by
  obtain ⟨run, rfl, hrun, hlength, -⟩ := takeNumber_eq_some htake
  rw [List.append_nil]
  have hne : run ≠ [] := List.ne_nil_of_length_pos (Nat.lt_of_lt_of_le hleast hlength)
  exact ⟨run.getLast hne, List.getLast?_eq_some_getLast hne, isBlank_of_isDigit (hrun _ (List.getLast_mem hne))⟩

end DocQuery.Text
