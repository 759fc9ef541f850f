import DocQuery.Proofs.Outcomes
import DocQuery.Proofs.Text.Blank
import DocQuery.Query.SortTerm

/-!
# The grammar of sort terms

A sort term can be read just if it is well formed: a named field is not blank, and between the commas of an expression
stands nothing, a field, or a field and a word for a direction. Blanks around a part make no difference. What keeps
terms from being read is always reported as a malformed order.
-/

namespace DocQuery

/-- The words for a direction, in lower case. -/
def Direction.words : List String := ["asc", "ascending", "desc", "descending"]

theorem Direction.exists_ofText?_iff {token : String} :
    (∃ d, ofText? token = some d) ↔ String.ofList (Text.lowerAscii token.toList) ∈ words := by
  simp only [ofText?, words, List.mem_cons, List.not_mem_nil, or_false]
  split
  · next hup => exact ⟨fun _ => hup.imp_right .inl, fun _ => ⟨ascending, rfl⟩⟩
  · next hup =>
    split
    · next hdown => exact ⟨fun _ => .inr (.inr hdown), fun _ => ⟨descending, rfl⟩⟩
    · next hdown =>
      constructor
      · rintro ⟨d, hd⟩
        cases hd
      · rintro (hword | hword | hword)
        · exact absurd (.inl hword) hup
        · exact absurd (.inr hword) hup
        · exact absurd hword hdown

namespace SortTerm

/-- What may stand between the commas of an expression: nothing but blanks, a field, or a field and a direction. -/
def IsPart (part : List Char) : Prop :=
  match Text.words part with
  | [] | [_] => True
  | [_, direction] => String.ofList (Text.lowerAscii direction) ∈ Direction.words
  | _ => False

def WellFormed : SortTerm → Prop
  | field name | directed name _ => ¬ Text.IsBlankText name.toList
  | expression text => ∀ part ∈ text.toList.splitOn ',', IsPart part

/-! ### Parts of an expression -/

theorem exists_readPart_iff {part : List Char} (hpart : ¬ Text.IsBlankText part) :
    (∃ key, readPart part = .ok key) ↔ IsPart part := by
  rw [← Text.words_eq_nil_iff] at hpart
  rw [readPart, IsPart]
  match hwords : Text.words part with
  | [] => exact absurd hwords hpart
  | [name] => simp
  | [name, direction] =>
    have hdirection : (∃ d, Direction.ofText? (String.ofList direction) = some d) ↔ _ := Direction.exists_ofText?_iff
    rw [String.toList_ofList] at hdirection
    dsimp only
    rw [← hdirection]
    cases Direction.ofText? (String.ofList direction) <;> simp
  | _ :: _ :: _ :: _ => simp

theorem isPart_trim {part : List Char} : IsPart (Text.trim part) ↔ IsPart part := by
  rw [IsPart, IsPart, Text.words_trim]

theorem isPart_of_blank {part : List Char} (hblank : Text.IsBlankText part) : IsPart part := by
  rw [IsPart, Text.words_eq_nil_iff.mpr hblank]
  trivial

theorem mem_parts {text : String} {part : List Char} :
    part ∈ parts text ↔ ∃ segment ∈ text.toList.splitOn ',', ¬ Text.IsBlankText segment ∧ Text.trim segment = part := by
  simp only [parts, List.mem_filter, List.mem_map, Bool.not_eq_true', List.isEmpty_eq_false_iff]
  constructor
  · rintro ⟨⟨segment, hsegment, rfl⟩, hne⟩
    exact ⟨segment, hsegment, fun hblank => hne (Text.trim_eq_nil_iff.mpr hblank), rfl⟩
  · rintro ⟨segment, hsegment, hblank, rfl⟩
    exact ⟨⟨segment, hsegment, rfl⟩, fun htrim => hblank (Text.trim_eq_nil_iff.mp htrim)⟩

theorem isBlankText_trim_iff {part : List Char} : Text.IsBlankText (Text.trim part) ↔ Text.IsBlankText part := by
  rw [← Text.words_eq_nil_iff, Text.words_trim, Text.words_eq_nil_iff]

/-- An expression can be read just if each of its parts can. -/
theorem exists_mapM_readPart_iff (text : String) :
    (∃ keys, (parts text).mapM readPart = .ok keys) ↔ ∀ segment ∈ text.toList.splitOn ',', IsPart segment := by
  rw [exists_mapM_ok_iff]
  constructor
  · intro hparts segment hsegment
    by_cases hblank : Text.IsBlankText segment
    · exact isPart_of_blank hblank
    · have hread := hparts _ (mem_parts.mpr ⟨segment, hsegment, hblank, rfl⟩)
      exact isPart_trim.mp ((exists_readPart_iff (isBlankText_trim_iff.not.mpr hblank)).mp hread)
  · intro hsegments part hpart
    obtain ⟨segment, hsegment, hblank, rfl⟩ := mem_parts.mp hpart
    exact (exists_readPart_iff (isBlankText_trim_iff.not.mpr hblank)).mpr (isPart_trim.mpr (hsegments segment hsegment))

/-! ### Terms -/

theorem exists_checkedName_iff {term : SortTerm} {name : String} :
    (∃ trimmed, term.checkedName name = .ok trimmed) ↔ ¬ Text.IsBlankText name.toList := by
  rw [checkedName, ← Text.trim_eq_nil_iff, ← List.isEmpty_iff]
  cases (Text.trim name.toList).isEmpty <;> simp

theorem exists_sortKeys_iff (term : SortTerm) : (∃ keys, term.sortKeys = .ok keys) ↔ term.WellFormed := by
  cases term with
  | field name | directed name direction => exact exists_map_ok_iff.trans exists_checkedName_iff
  | expression text => exact exists_mapM_readPart_iff text

/-- A list of terms can be read just if each of them is well formed. -/
theorem exists_allSortKeys_iff (terms : List SortTerm) :
    (∃ keys, allSortKeys terms = .ok keys) ↔ ∀ term ∈ terms, term.WellFormed := by
  rw [allSortKeys, exists_map_ok_iff, exists_mapM_ok_iff]
  exact forall₂_congr fun term _ => exists_sortKeys_iff term

/-! ### Errors -/

theorem eq_invalidOrder_of_readPart {part : List Char} {e : CompileError} (hread : readPart part = .error e) :
    ∃ clause, e = .invalidOrder clause := by
  rw [readPart] at hread
  split at hread
  · cases hread
  · split at hread
    · cases hread
    · cases hread
      exact ⟨_, rfl⟩
  · cases hread
    exact ⟨_, rfl⟩

theorem eq_invalidOrder_of_checkedName {term : SortTerm} {name : String} {e : CompileError}
    (hname : term.checkedName name = .error e) : ∃ clause, e = .invalidOrder clause := by
  rw [checkedName] at hname
  split at hname
  · cases hname
    exact ⟨_, rfl⟩
  · cases hname

theorem eq_invalidOrder_of_sortKeys {term : SortTerm} {e : CompileError} (hterm : term.sortKeys = .error e) :
    ∃ clause, e = .invalidOrder clause := by
  cases term with
  | field name | directed name direction => exact eq_invalidOrder_of_checkedName (map_eq_error_iff.mp hterm)
  | expression text =>
    obtain ⟨i, part, -, hread, -⟩ := mapM_eq_error_iff.mp hterm
    exact eq_invalidOrder_of_readPart hread

theorem eq_invalidOrder_of_allSortKeys {terms : List SortTerm} {e : CompileError}
    (hterms : allSortKeys terms = .error e) : ∃ clause, e = .invalidOrder clause := by
  obtain ⟨i, term, -, hterm, -⟩ := mapM_eq_error_iff.mp (map_eq_error_iff.mp hterms)
  exact eq_invalidOrder_of_sortKeys hterm

end SortTerm

end DocQuery
