import DocQuery.Query.Operator

/-!
# Tokens of comparators

What a token means is up to its letters: what is left of it without the dollar signs that it starts with, in whatever
case they are written. No other character is a dollar sign in lower case, so the signs may as well be taken away after
the case, and what is left is the same whatever signs and case are added. A token whose letters name no comparison is
kept as it was written, and so it stands in the error of an operator that is made of it.
-/

namespace DocQuery

theorem Comparison.ofName?_eq_some_iff {name : String} {c : Comparison} : ofName? name = some c ↔ c.name = name := by
  constructor
  · intro hfind
    simpa using List.find?_some hfind
  · rintro rfl
    exact ofName?_name c

namespace Comparator

open Text

variable {token other : String} {c : Comparison}

/-- The token is the name of the comparison, in any case, behind any number of dollar signs. -/
def Spells (token : String) (c : Comparison) : Prop :=
  ∃ signs letters, token.toList = List.replicate signs '$' ++ letters ∧ letters.head? ≠ some '$' ∧
    lowerAscii letters = c.name.toList

/-- The second token is the first behind further dollar signs and in another case. -/
def Respelled (token other : String) : Prop :=
  ∃ signs written, other.toList = List.replicate signs '$' ++ written ∧ lowerAscii written = lowerAscii token.toList

/-- The text without the dollar signs that it starts with. -/
def withoutSigns (cs : List Char) : List Char := cs.dropWhile (· = '$')

/-! ### Letters -/

theorem lowerAscii_withoutSigns (cs : List Char) : lowerAscii (withoutSigns cs) = withoutSigns (lowerAscii cs) := by
  have hsign : ((fun c : Char => decide (c = '$')) ∘ Char.toLower) = fun c => decide (c = '$') := by
    funext c
    rw [Function.comp_apply, decide_eq_decide, toLower_eq_iff (by decide)]
  rw [lowerAscii, lowerAscii, withoutSigns, withoutSigns, List.dropWhile_map, hsign]

theorem withoutSigns_signs_append (signs : Nat) (cs : List Char) :
    withoutSigns (List.replicate signs '$' ++ cs) = withoutSigns cs :=
  List.dropWhile_append_of_pos fun _ hc => decide_eq_true (List.eq_of_mem_replicate hc)

theorem exists_withoutSigns (cs : List Char) : ∃ signs, cs = List.replicate signs '$' ++ withoutSigns cs := by
  refine ⟨(cs.takeWhile (· = '$')).length, ?_⟩
  have hsigns : cs.takeWhile (· = '$') = List.replicate (cs.takeWhile (· = '$')).length '$' :=
    List.eq_replicate_of_mem fun c hc => of_decide_eq_true (List.all_eq_true.mp List.all_takeWhile c hc)
  rw [← hsigns]
  exact List.takeWhile_append_dropWhile.symm

theorem withoutSigns_of_head? {cs : List Char} (hhead : cs.head? ≠ some '$') : withoutSigns cs = cs := by
  cases cs with
  | nil => rfl
  | cons c rest => exact List.dropWhile_cons_of_neg (by simpa using hhead)

theorem head?_withoutSigns (cs : List Char) : (withoutSigns cs).head? ≠ some '$' := by
  intro hhead
  have hnot := List.head?_dropWhile_not (fun c : Char => decide (c = '$')) cs
  rw [withoutSigns] at hhead
  rw [hhead] at hnot
  simp at hnot

/-! ### Reading a token -/

theorem spells_iff : Spells token c ↔ lowerAscii (withoutSigns token.toList) = c.name.toList := by
  constructor
  · rintro ⟨signs, written, htoken, hhead, hname⟩
    rw [htoken, withoutSigns_signs_append, withoutSigns_of_head? hhead, hname]
  · intro hname
    obtain ⟨signs, htoken⟩ := exists_withoutSigns token.toList
    exact ⟨signs, _, htoken, head?_withoutSigns _, hname⟩

theorem parse_eq (token : String) : parse token =
    match Comparison.ofName? (String.ofList (lowerAscii (withoutSigns token.toList))) with
    | some c => known c
    | none => unrecognized token := rfl

theorem parse_eq_known_iff : parse token = known c ↔ Spells token c := by
  have hname : Comparison.ofName? (String.ofList (lowerAscii (withoutSigns token.toList))) = some c ↔ Spells token c := by
    rw [Comparison.ofName?_eq_some_iff, spells_iff]
    exact ⟨fun heq => by rw [heq, String.toList_ofList], fun heq => by rw [heq, String.ofList_toList]⟩
  rw [parse_eq, ← hname]
  cases Comparison.ofName? (String.ofList (lowerAscii (withoutSigns token.toList))) with
  | none => exact iff_of_false (by simp) (by simp)
  | some other => rw [known.injEq, Option.some.injEq]

theorem parse_of_not_spells (hnone : ∀ c, ¬ Spells token c) : parse token = unrecognized token := by
  rw [parse_eq]
  split
  · next c hname => exact absurd (parse_eq_known_iff.mp (by rw [parse_eq, hname])) (hnone c)
  · rfl

theorem parse_respelled (htoken : Spells token c) (hother : Respelled token other) : parse other = parse token := by
  obtain ⟨signs, written, hwritten, hcase⟩ := hother
  have hletters : lowerAscii (withoutSigns other.toList) = lowerAscii (withoutSigns token.toList) := by
    rw [hwritten, withoutSigns_signs_append, lowerAscii_withoutSigns, lowerAscii_withoutSigns, hcase]
  rw [parse_eq_known_iff.mpr htoken, parse_eq_known_iff, spells_iff, hletters]
  exact spells_iff.mp htoken

/-- The text of a comparator reads as the comparator. -/
theorem parse_text_parse (token : String) : parse (parse token).text = parse token := by
  rw [parse_eq token]
  split
  · next c hname => cases c <;> decide +kernel
  · next hname => rw [text, parse_eq, hname]

/-- A token is read as the comparison whose name it is, in any case and behind any dollar signs, and is written with one
in a selector. Every other token is kept as it is, and an operator made of it fails with its field and token. What is
read is read again from its text. -/
theorem tokens_read_by_name (field token : String) :
    (∀ c, parse token = known c ↔ Spells token c) ∧
    (∀ c, Spells token c →
      (∀ operand, (Operator.parse field token).fragment operand = .ok [("$" ++ c.name, operand)]) ∧
      ∀ other, Respelled token other → parse other = parse token) ∧
    ((∀ c, ¬ Spells token c) →
      parse token = unrecognized token ∧
      ∀ operand, (Operator.parse field token).fragment operand =
        .error (.invalidOperator (field ++ "." ++ token))) ∧
    parse (parse token).text = parse token := by
  refine ⟨fun c => parse_eq_known_iff, fun c htoken => ⟨fun operand => ?_, fun other hother => ?_⟩,
    fun hnone => ?_, parse_text_parse token⟩
  · rw [Operator.fragment, Operator.parse, parse_eq_known_iff.mpr htoken]
    rfl
  · exact parse_respelled htoken hother
  · have hparse := parse_of_not_spells hnone
    refine ⟨hparse, fun operand => ?_⟩
    rw [Operator.fragment, Operator.parse, hparse]
    rfl

/-- Signs and case go, and a sign behind the name does not. -/
theorem spellings_of_atLeast :
    (Operator.parse "age" "$GtE").fragment (.int64 14) = .ok [("$gte", .int64 14)] ∧
    parse "$$gTE" = parse "$GtE" ∧
    (Operator.parse "age" "$gte$").fragment (.int64 14) = .error (.invalidOperator "age.$gte$") := by
  obtain ⟨-, hspelled, -, -⟩ := tokens_read_by_name "age" "$GtE"
  obtain ⟨hknown, -, hkept, -⟩ := tokens_read_by_name "age" "$gte$"
  have hname : Spells "$GtE" .atLeast := ⟨1, "GtE".toList, by decide, by decide, by decide⟩
  have hnone : ∀ c, ¬ Spells "$gte$" c := by
    intro c hc
    have hread : parse "$gte$" = unrecognized "$gte$" := by decide +kernel
    rw [← hknown, hread] at hc
    cases hc
  exact ⟨(hspelled _ hname).1 _, (hspelled _ hname).2 _ ⟨1, "$gTE".toList, by decide, by decide⟩, (hkept hnone).2 _⟩

end Comparator

end DocQuery
