import Mathlib.Data.List.TakeWhile
import DocQuery.Text.Blank

/-!
# Blanks at the ends

Trimming takes blanks away from both ends and nothing else, so a text is blank just if nothing is left of it. Words do
not see blanks at the ends, so they are the same before and after trimming.
-/

namespace DocQuery.Text

variable {cs : List Char}

def IsBlankText (cs : List Char) : Prop := ∀ c ∈ cs, isBlank c = true

instance (cs : List Char) : Decidable (IsBlankText cs) := List.decidableBAll (isBlank · = true) cs

/-! ### Trimming -/

theorem exists_skipBlanks (cs : List Char) : ∃ lead, IsBlankText lead ∧ cs = lead ++ skipBlanks cs :=
  ⟨cs.takeWhile isBlank, fun _ hc => List.mem_takeWhile_imp hc, List.takeWhile_append_dropWhile.symm⟩

theorem exists_skipBlanks_eq_trim_append (cs : List Char) : ∃ trail, IsBlankText trail ∧ skipBlanks cs = trim cs ++ trail := by
  obtain ⟨trail, htrail, hend⟩ := exists_skipBlanks (skipBlanks cs).reverse
  refine ⟨trail.reverse, fun c hc => htrail c (List.mem_reverse.mp hc), ?_⟩
  calc skipBlanks cs = (skipBlanks cs).reverse.reverse := (List.reverse_reverse _).symm
    _ = (trail ++ skipBlanks (skipBlanks cs).reverse).reverse := congrArg List.reverse hend
    _ = trim cs ++ trail.reverse := List.reverse_append

/-- A trimmed text stands between blanks in the text. -/
theorem exists_trim (cs : List Char) :
    ∃ lead trail, IsBlankText lead ∧ IsBlankText trail ∧ cs = lead ++ trim cs ++ trail := by
  obtain ⟨lead, hlead, hstart⟩ := exists_skipBlanks cs
  obtain ⟨trail, htrail, hback⟩ := exists_skipBlanks_eq_trim_append cs
  refine ⟨lead, trail, hlead, htrail, ?_⟩
  rw [List.append_assoc, ← hback]
  exact hstart

theorem skipBlanks_eq_nil_iff : skipBlanks cs = [] ↔ IsBlankText cs := List.dropWhile_eq_nil_iff

theorem trim_eq_nil_iff : trim cs = [] ↔ IsBlankText cs := by
  constructor
  · intro htrim
    obtain ⟨lead, trail, hlead, htrail, hcs⟩ := exists_trim cs
    rw [hcs, htrim, List.append_nil]
    exact fun c hc => (List.mem_append.mp hc).elim (hlead c) (htrail c)
  · intro hblank
    rw [trim, skipBlanks_eq_nil_iff.mpr hblank]
    rfl

/-! ### Words -/

theorem words_append_cons {c : Char} (hc : isBlank c = true) (cs rest : List Char) :
    words (cs ++ c :: rest) = words cs ++ words rest := by
  rw [words, List.splitOnP_append_cons cs rest hc, List.filter_append]
  rfl

theorem words_blank_append {lead : List Char} (hlead : IsBlankText lead) (cs : List Char) :
    words (lead ++ cs) = words cs := by
  induction lead with
  | nil => rfl
  | cons c rest ih =>
    obtain ⟨hc, hrest⟩ := List.forall_mem_cons.mp hlead
    rw [List.cons_append, ← List.nil_append (c :: _), words_append_cons hc, ih hrest]
    rfl

theorem words_cons_ne_nil {c : Char} (hc : isBlank c = false) (cs : List Char) : words (c :: cs) ≠ [] := by
  obtain ⟨word, rest, hsplit⟩ := List.exists_cons_of_ne_nil (List.splitOnP_ne_nil isBlank cs)
  rw [words, List.splitOnP_cons_eq_if_modifyHead, hsplit, hc]
  simp

theorem words_eq_nil_iff : words cs = [] ↔ IsBlankText cs := by
  constructor
  · intro hwords
    induction cs with
    | nil => exact nofun
    | cons c rest ih =>
      cases hc : isBlank c with
      | false => exact absurd hwords (words_cons_ne_nil hc rest)
      | true =>
        rw [← List.nil_append (c :: rest), words_append_cons hc] at hwords
        exact List.forall_mem_cons.mpr ⟨hc, ih hwords⟩
  · intro hblank
    rw [← List.append_nil cs, words_blank_append hblank]
    rfl

theorem words_append_blank {trail : List Char} (htrail : IsBlankText trail) (cs : List Char) :
    words (cs ++ trail) = words cs := by
  cases trail with
  | nil => rw [List.append_nil]
  | cons c rest =>
    obtain ⟨hc, hrest⟩ := List.forall_mem_cons.mp htrail
    rw [words_append_cons hc, words_eq_nil_iff.mpr hrest, List.append_nil]

theorem words_trim (cs : List Char) : words (trim cs) = words cs := by
  obtain ⟨lead, trail, hlead, htrail, hcs⟩ := exists_trim cs
  calc words (trim cs) = words (lead ++ trim cs ++ trail) := by
        rw [words_append_blank htrail, words_blank_append hlead]
    _ = words cs := by rw [← hcs]

end DocQuery.Text
