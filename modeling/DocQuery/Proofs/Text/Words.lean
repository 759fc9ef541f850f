import DocQuery.Proofs.Text.Blank

/-!
# Trimmed texts and words, as they stand in a text

What trimming and cutting into words give is told from how the text is made up. The trimmed text is the one that stands
between blanks and has no blank at either end. The first word is a run of characters that are not blank: blanks stand
before it, and if anything stands after it, that starts with a blank.
-/

namespace DocQuery.Text

variable {cs core lead trail word rest : List Char} {others : List (List Char)}

/-- The text starts with no blank. -/
def StartsFilled (cs : List Char) : Prop := ∀ c ∈ cs.head?, isBlank c = false

/-- Nothing is left of the text, or it goes on with a blank. -/
def StartsBlank (cs : List Char) : Prop := ∀ c ∈ cs.head?, isBlank c = true

/-- The second text is the first without the blanks at its ends. -/
def Trims (cs core : List Char) : Prop :=
  ∃ lead trail, IsBlankText lead ∧ IsBlankText trail ∧ cs = lead ++ core ++ trail ∧
    StartsFilled core ∧ StartsFilled core.reverse

/-- A text that is not empty and has no blanks. -/
def IsWord (cs : List Char) : Prop := cs ≠ [] ∧ ∀ c ∈ cs, isBlank c = false

instance (cs : List Char) : Decidable (IsWord cs) :=
  @instDecidableAnd (cs ≠ []) _ inferInstance (List.decidableBAll (isBlank · = false) cs)

/-! ### Trimming -/

theorem skipBlanks_blank_append (hlead : IsBlankText lead) (cs : List Char) : skipBlanks (lead ++ cs) = skipBlanks cs :=
  List.dropWhile_append_of_pos hlead

theorem skipBlanks_of_startsFilled (hcs : StartsFilled cs) : skipBlanks cs = cs := by
  cases cs with
  | nil => rfl
  | cons c rest => exact List.dropWhile_cons_of_neg (by simp [hcs c rfl])

theorem startsFilled_skipBlanks (cs : List Char) : StartsFilled (skipBlanks cs) := by
  intro c hc
  obtain ⟨rest, hrest⟩ := List.head?_eq_some_iff.mp hc
  exact isBlank_head_skipBlanks hrest

theorem startsFilled_append_iff (hcore : core ≠ []) : StartsFilled (core ++ rest) ↔ StartsFilled core := by
  obtain ⟨c, others, rfl⟩ := List.exists_cons_of_ne_nil hcore
  rfl

theorem trims_trim (cs : List Char) : Trims cs (trim cs) := by
  obtain ⟨lead, trail, hlead, htrail, hcs⟩ := exists_trim cs
  refine ⟨lead, trail, hlead, htrail, hcs, ?_, ?_⟩
  · by_cases hnil : trim cs = []
    · rw [hnil]
      exact nofun
    · obtain ⟨trail, -, hback⟩ := exists_skipBlanks_eq_trim_append cs
      rw [← startsFilled_append_iff hnil, ← hback]
      exact startsFilled_skipBlanks cs
  · rw [trim, List.reverse_reverse]
    exact startsFilled_skipBlanks _

/-- Trimming gives the one text that stands between blanks and has none at its ends. -/
theorem trim_eq_iff : trim cs = core ↔ Trims cs core := by
  constructor
  · rintro rfl
    exact trims_trim cs
  · rintro ⟨lead, trail, hlead, htrail, rfl, hstart, hend⟩
    by_cases hnil : core = []
    · subst hnil
      refine trim_eq_nil_iff.mpr fun c hc => ?_
      rw [List.append_nil] at hc
      exact (List.mem_append.mp hc).elim (hlead c) (htrail c)
    · have hfront : skipBlanks (lead ++ core ++ trail) = core ++ trail := by
        rw [List.append_assoc, skipBlanks_blank_append hlead]
        exact skipBlanks_of_startsFilled ((startsFilled_append_iff hnil).mpr hstart)
      have htrail' : IsBlankText trail.reverse := fun c hc => htrail c (List.mem_reverse.mp hc)
      rw [trim, hfront, List.reverse_append, skipBlanks_blank_append htrail', skipBlanks_of_startsFilled hend,
        List.reverse_reverse]

/-! ### Words -/

theorem words_of_isWord (hword : IsWord word) : words word = [word] := by
  rw [words, List.splitOnP_eq_singleton hword.2]
  simp [hword.1]

/-- A word at the start of a text, up to a blank or the end, is the first of its words. -/
theorem words_word_append (hword : IsWord word) (hrest : StartsBlank rest) : words (word ++ rest) = word :: words rest := by
  cases rest with
  | nil =>
    rw [List.append_nil]
    exact words_of_isWord hword
  | cons c rest =>
    have hc : isBlank c = true := hrest c rfl
    rw [words_append_cons hc, words_of_isWord hword, ← List.nil_append (c :: rest), words_append_cons hc]
    rfl

/-- Every text that is not blank starts with a word, after blanks. -/
theorem exists_word (hcs : ¬ IsBlankText cs) :
    ∃ lead word rest, IsBlankText lead ∧ IsWord word ∧ StartsBlank rest ∧ cs = lead ++ word ++ rest := by
  obtain ⟨lead, hlead, hstart⟩ := exists_skipBlanks cs
  let isFilled : Char → Bool := fun c => !isBlank c
  refine ⟨lead, (skipBlanks cs).takeWhile isFilled, (skipBlanks cs).dropWhile isFilled, hlead, ⟨?_, ?_⟩, ?_, ?_⟩
  · obtain ⟨c, rest, hrest⟩ := List.exists_cons_of_ne_nil (mt skipBlanks_eq_nil_iff.mp hcs)
    have hc := isBlank_head_skipBlanks hrest
    rw [hrest, List.takeWhile_cons_of_pos (by simp [isFilled, hc])]
    exact List.cons_ne_nil _ _
  · intro c hc
    simpa [isFilled] using List.mem_takeWhile_imp hc
  · intro c hc
    have hhead := List.head?_dropWhile_not isFilled (skipBlanks cs)
    rw [hc] at hhead
    simpa [isFilled] using hhead
  · rw [List.append_assoc, List.takeWhile_append_dropWhile]
    exact hstart

/-- The first of the words of a text, and what the others are the words of. -/
theorem words_eq_cons_iff : words cs = word :: others ↔
    ∃ lead rest, IsBlankText lead ∧ IsWord word ∧ StartsBlank rest ∧ cs = lead ++ word ++ rest ∧ words rest = others := by
  constructor
  · intro hwords
    have hcs : ¬ IsBlankText cs := by
      rw [← words_eq_nil_iff, hwords]
      exact List.cons_ne_nil _ _
    obtain ⟨lead, word', rest, hlead, hword, hrest, rfl⟩ := exists_word hcs
    rw [List.append_assoc, words_blank_append hlead, words_word_append hword hrest] at hwords
    obtain ⟨rfl, rfl⟩ := List.cons.inj hwords
    exact ⟨lead, rest, hlead, hword, hrest, rfl, rfl⟩
  · rintro ⟨lead, rest, hlead, hword, hrest, rfl, rfl⟩
    rw [List.append_assoc, words_blank_append hlead, words_word_append hword hrest]

theorem startsBlank_of_isBlankText (htrail : IsBlankText trail) : StartsBlank trail :=
  fun c hc => htrail c (List.mem_of_mem_head? hc)

theorem words_eq_singleton_iff : words cs = [word] ↔
    ∃ lead trail, IsBlankText lead ∧ IsWord word ∧ IsBlankText trail ∧ cs = lead ++ word ++ trail := by
  rw [words_eq_cons_iff]
  refine exists₂_congr fun lead trail => ?_
  rw [words_eq_nil_iff]
  constructor
  · rintro ⟨hlead, hword, -, hcs, htrail⟩
    exact ⟨hlead, hword, htrail, hcs⟩
  · rintro ⟨hlead, hword, htrail, hcs⟩
    exact ⟨hlead, hword, startsBlank_of_isBlankText htrail, hcs, htrail⟩

theorem words_eq_pair_iff {second : List Char} : words cs = [word, second] ↔
    ∃ lead gap trail, IsBlankText lead ∧ IsWord word ∧ IsBlankText gap ∧ gap ≠ [] ∧ IsWord second ∧ IsBlankText trail ∧
      cs = lead ++ word ++ gap ++ second ++ trail := by
  rw [words_eq_cons_iff]
  constructor
  · rintro ⟨lead, rest, hlead, hword, hrest, rfl, hsecond⟩
    obtain ⟨gap, trail, hgap, hfilled, htrail, rfl⟩ := words_eq_singleton_iff.mp hsecond
    refine ⟨lead, gap, trail, hlead, hword, hgap, ?_, hfilled, htrail, by simp⟩
    -- Without blanks in between, the second word would go on from the first.
    rintro rfl
    obtain ⟨c, others, rfl⟩ := List.exists_cons_of_ne_nil hfilled.1
    have hblank : isBlank c = true := hrest c rfl
    rw [hfilled.2 c List.mem_cons_self] at hblank
    cases hblank
  · rintro ⟨lead, gap, trail, hlead, hword, hgap, hne, hsecond, htrail, rfl⟩
    refine ⟨lead, gap ++ second ++ trail, hlead, hword, ?_, by simp, ?_⟩
    · obtain ⟨c, others, rfl⟩ := List.exists_cons_of_ne_nil hne
      intro c' hc'
      cases hc'
      exact hgap c List.mem_cons_self
    · exact words_eq_singleton_iff.mpr ⟨gap, trail, hgap, hsecond, htrail, rfl⟩

end DocQuery.Text
