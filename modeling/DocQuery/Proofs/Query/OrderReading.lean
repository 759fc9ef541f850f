import Mathlib.Data.List.Forall2
import DocQuery.Proofs.Query.SortTerms
import DocQuery.Proofs.Text.Words

/-!
# Orders are read by their grammar

The grammar says how a term is made up of blanks, words and commas, and nothing of how it is read. Terms are read just as
the grammar has it: what they are read as is what their parts stand for, one after the other, and where some part is none
of the grammar, the first such part is reported. An expression is read part by part as a list of terms is read term by
term, so what holds of going through a list is said once and serves both.
-/

namespace DocQuery

/-! ### Reading a list -/

section Gather

variable {ε α β : Type} {read : α → Except ε (List β)} {l : List α} {a : α}

/-- What the members of a list are read as, one after the other. -/
def gather (read : α → Except ε (List β)) (l : List α) : Except ε (List β) := (l.mapM read).map List.flatten

theorem gather_cons (read : α → Except ε (List β)) (a : α) (l : List α) :
    gather read (a :: l) = do return (← read a) ++ (← gather read l) := by
  rw [gather, gather, List.mapM_cons]
  cases read a with
  | error e => rfl
  | ok bs => cases l.mapM read <;> rfl

theorem gather_append (read : α → Except ε (List β)) (l rest : List α) :
    gather read (l ++ rest) = do return (← gather read l) ++ (← gather read rest) := by
  rw [gather, gather, gather, List.mapM_append]
  cases l.mapM read with
  | error e => rfl
  | ok bss =>
    cases rest.mapM read with
    | error e => rfl
    | ok css => exact congrArg Except.ok List.flatten_append

theorem gather_eq_ok_iff {bs : List β} :
    gather read l = .ok bs ↔ ∃ readings, List.Forall₂ (fun a bs => read a = .ok bs) l readings ∧ bs = readings.flatten := by
  induction l generalizing bs with
  | nil =>
    constructor
    · intro hbs
      cases hbs
      exact ⟨[], .nil, rfl⟩
    · rintro ⟨readings, hreadings, rfl⟩
      cases hreadings
      rfl
  | cons a rest ih =>
    rw [gather_cons]
    constructor
    · intro hbs
      obtain ⟨first, hfirst, hbs⟩ := bind_eq_ok hbs
      obtain ⟨others, hothers, hdone⟩ := bind_eq_ok hbs
      cases hdone
      obtain ⟨readings, hreadings, rfl⟩ := ih.mp hothers
      exact ⟨first :: readings, .cons hfirst hreadings, rfl⟩
    · rintro ⟨readings, hreadings, rfl⟩
      cases hreadings with
      | cons hfirst hothers =>
        rw [hfirst, ih.mpr ⟨_, hothers, rfl⟩]
        rfl

theorem gather_eq_error_iff {e : ε} :
    gather read l = .error e ↔ ∃ before a after, l = before ++ a :: after ∧
      (∀ b ∈ before, ∃ bs, read b = .ok bs) ∧ read a = .error e := by
  rw [gather, map_eq_error_iff]
  induction l with
  | nil =>
    constructor
    · intro hnil
      cases hnil
    · rintro ⟨before, a, after, hl, -⟩
      cases List.append_ne_nil_of_right_ne_nil before (List.cons_ne_nil a after) hl.symm
  | cons a rest ih =>
    rw [mapM_cons_eq_error_iff, ih]
    constructor
    · rintro (ha | ⟨hok, before, b, after, rfl, hbefore, hb⟩)
      · exact ⟨[], a, rest, rfl, fun b hb => absurd hb List.not_mem_nil, ha⟩
      · exact ⟨a :: before, b, after, rfl, List.forall_mem_cons.mpr ⟨hok, hbefore⟩, hb⟩
    · rintro ⟨before, b, after, hl, hbefore, hb⟩
      cases before with
      | nil =>
        cases hl
        exact .inl hb
      | cons c before =>
        cases hl
        rw [List.forall_mem_cons] at hbefore
        exact .inr ⟨hbefore.1, before, b, after, rfl, hbefore.2, hb⟩

end Gather

/-! ### Directions -/

/-- The words for a direction, in lower case. -/
def Direction.spellings : Direction → List String
  | ascending => ["asc", "ascending"]
  | descending => ["desc", "descending"]

def Direction.IsSpelled (d : Direction) (word : List Char) : Prop := String.ofList (Text.lowerAscii word) ∈ d.spellings

theorem Direction.ofText?_eq_some_iff {word : List Char} {d : Direction} :
    ofText? (String.ofList word) = some d ↔ d.IsSpelled word := by
  rw [ofText?, String.toList_ofList, IsSpelled]
  generalize String.ofList (Text.lowerAscii word) = lower
  cases d <;> simp only [spellings, List.mem_cons, List.not_mem_nil, or_false] <;> split
  · next hup => exact iff_of_true rfl hup
  · next hup => exact iff_of_false (by split <;> simp) hup
  · next hup => exact iff_of_false (by simp) (by rcases hup with rfl | rfl <;> decide)
  · split
    · next hdown => exact iff_of_true rfl hdown
    · next hdown => exact iff_of_false (by simp) hdown

theorem Direction.isSpelled_text (d : Direction) : d.IsSpelled d.text.toList := by
  rw [← ofText?_eq_some_iff, String.ofList_toList]
  cases d <;> decide +kernel

theorem Direction.isWord_text (d : Direction) : Text.IsWord d.text.toList ∧ ',' ∉ d.text.toList := by
  cases d <;> exact ⟨by decide, by decide⟩

namespace SortTerm

/-! ### The grammar -/

/-- What may stand between the commas of an expression, with the fields to sort by that it stands for. -/
inductive Segment : List Char → List SortKey → Prop where
  | blank {cs : List Char} (hblank : Text.IsBlankText cs) : Segment cs []
  | field {lead name trail : List Char} (hlead : Text.IsBlankText lead) (hname : Text.IsWord name)
      (htrail : Text.IsBlankText trail) : Segment (lead ++ name ++ trail) [⟨String.ofList name, .ascending⟩]
  | directed {lead name gap word trail : List Char} {d : Direction} (hlead : Text.IsBlankText lead)
      (hname : Text.IsWord name) (hgap : Text.IsBlankText gap) (hapart : gap ≠ []) (hword : Text.IsWord word)
      (hd : d.IsSpelled word) (htrail : Text.IsBlankText trail) :
      Segment (lead ++ name ++ gap ++ word ++ trail) [⟨String.ofList name, d⟩]

/-- A term with the fields to sort by that it stands for, in order. -/
inductive Reads : SortTerm → List SortKey → Prop where
  | field {name : String} {core : List Char} (hcore : Text.Trims name.toList core) (hne : core ≠ []) :
      Reads (.field name) [⟨String.ofList core, .ascending⟩]
  | directed {name : String} {core : List Char} {d : Direction} (hcore : Text.Trims name.toList core) (hne : core ≠ []) :
      Reads (.directed name d) [⟨String.ofList core, d⟩]
  | expression {text : String} {readings : List (List SortKey)}
      (hsegments : List.Forall₂ Segment (text.toList.splitOn ',') readings) : Reads (.expression text) readings.flatten

/-- A term that cannot be read, with the clause that is reported: the term with a blank for its field, or the first
segment of the expression that is none of the grammar, trimmed. -/
inductive Offends : SortTerm → String → Prop where
  | field {name : String} (hblank : Text.IsBlankText name.toList) :
      Offends (.field name) ("missing field in '" ++ name ++ "'")
  | directed {name : String} {d : Direction} (hblank : Text.IsBlankText name.toList) :
      Offends (.directed name d) ("missing field in '" ++ (name ++ " " ++ d.text) ++ "'")
  | expression {text : String} {before after : List (List Char)} {segment core : List Char}
      (hsplit : text.toList.splitOn ',' = before ++ segment :: after) (hbefore : ∀ part ∈ before, IsPart part)
      (hsegment : ¬ IsPart segment) (hcore : Text.Trims segment core) : Offends (.expression text) (String.ofList core)

/-- The first of the terms that cannot be read, with the clause that is reported of it. -/
def FirstOffence (terms : List SortTerm) (clause : String) : Prop :=
  ∃ before term after, terms = before ++ term :: after ∧ (∀ t ∈ before, t.WellFormed) ∧ Offends term clause

/-! ### Segments -/

theorem segment_iff {segment : List Char} {keys : List SortKey} : Segment segment keys ↔
    match Text.words segment with
    | [] => keys = []
    | [name] => keys = [⟨String.ofList name, .ascending⟩]
    | [name, word] => ∃ d : Direction, d.IsSpelled word ∧ keys = [⟨String.ofList name, d⟩]
    | _ => False := by
  constructor
  · rintro (hblank | ⟨hlead, hname, htrail⟩ | ⟨hlead, hname, hgap, hapart, hword, hd, htrail⟩)
    · rw [Text.words_eq_nil_iff.mpr hblank]
    · rw [Text.words_eq_singleton_iff.mpr ⟨_, _, hlead, hname, htrail, rfl⟩]
    · rw [Text.words_eq_pair_iff.mpr ⟨_, _, _, hlead, hname, hgap, hapart, hword, htrail, rfl⟩]
      exact ⟨_, hd, rfl⟩
  · intro hwords
    split at hwords
    · next hnil =>
      subst hwords
      exact .blank (Text.words_eq_nil_iff.mp hnil)
    · next hsingle =>
      obtain ⟨lead, trail, hlead, hname, htrail, rfl⟩ := Text.words_eq_singleton_iff.mp hsingle
      subst hwords
      exact .field hlead hname htrail
    · next hpair =>
      obtain ⟨lead, gap, trail, hlead, hname, hgap, hapart, hword, htrail, rfl⟩ := Text.words_eq_pair_iff.mp hpair
      obtain ⟨d, hd, rfl⟩ := hwords
      exact .directed hlead hname hgap hapart hword hd htrail
    · exact hwords.elim

/-- Reads a segment of an expression, which may be blank. -/
def readSegment (segment : List Char) : Except CompileError (List SortKey) :=
  if (Text.trim segment).isEmpty then .ok [] else (readPart (Text.trim segment)).map fun key => [key]

theorem readSegment_eq (segment : List Char) : readSegment segment =
    match Text.words segment with
    | [] => .ok []
    | [name] => .ok [⟨String.ofList name, .ascending⟩]
    | [name, word] =>
      match Direction.ofText? (String.ofList word) with
      | some d => .ok [⟨String.ofList name, d⟩]
      | none => .error (.invalidOrder (String.ofList (Text.trim segment)))
    | _ => .error (.invalidOrder (String.ofList (Text.trim segment))) := by
  have hempty : (Text.trim segment).isEmpty = true ↔ Text.words segment = [] := by
    rw [List.isEmpty_iff, Text.trim_eq_nil_iff, Text.words_eq_nil_iff]
  rw [readSegment, readPart, Text.words_trim]
  cases hwords : Text.words segment with
  | nil => exact if_pos (hempty.mpr hwords)
  | cons name more =>
    rw [if_neg (by simp [hempty, hwords])]
    cases more with
    | nil => rfl
    | cons word more =>
      cases more with
      | nil =>
        dsimp only
        cases Direction.ofText? (String.ofList word) <;> rfl
      | cons => rfl

theorem readSegment_eq_ok_iff {segment : List Char} {keys : List SortKey} :
    readSegment segment = .ok keys ↔ Segment segment keys := by
  rw [readSegment_eq, segment_iff]
  match Text.words segment with
  | [] | [name] => exact (Except.ok.injEq _ _).to_iff.trans eq_comm
  | [name, word] =>
    simp only [← Direction.ofText?_eq_some_iff]
    cases Direction.ofText? (String.ofList word) with
    | none => simp
    | some d => simp [eq_comm]
  | _ :: _ :: _ :: _ => simp

theorem exists_segment_iff {segment : List Char} : (∃ keys, Segment segment keys) ↔ IsPart segment := by
  simp only [segment_iff, IsPart]
  match Text.words segment with
  | [] | [name] => simp
  | [name, word] =>
    have hword : (∃ d, Direction.ofText? (String.ofList word) = some d) ↔ _ := Direction.exists_ofText?_iff
    simp only [Direction.ofText?_eq_some_iff, String.toList_ofList] at hword
    exact Iff.trans ⟨fun ⟨_, d, hd, _⟩ => ⟨d, hd⟩, fun ⟨d, hd⟩ => ⟨_, d, hd, rfl⟩⟩ hword
  | _ :: _ :: _ :: _ => simp

theorem eq_invalidOrder_of_readSegment {segment : List Char} {e : CompileError} (hread : readSegment segment = .error e) :
    e = .invalidOrder (String.ofList (Text.trim segment)) := by
  rw [readSegment_eq] at hread
  split at hread
  · cases hread
  · cases hread
  · split at hread <;> cases hread
    rfl
  · cases hread
    rfl

theorem exists_readSegment_iff {segment : List Char} : (∃ keys, readSegment segment = .ok keys) ↔ IsPart segment := by
  simp only [readSegment_eq_ok_iff, exists_segment_iff]

theorem readSegment_eq_error_iff {segment : List Char} {e : CompileError} : readSegment segment = .error e ↔
    ¬ IsPart segment ∧ ∃ core, Text.Trims segment core ∧ e = .invalidOrder (String.ofList core) := by
  rw [← exists_readSegment_iff]
  simp only [← Text.trim_eq_iff, exists_eq_left']
  constructor
  · intro hread
    exact ⟨by simp [hread], eq_invalidOrder_of_readSegment hread⟩
  · rintro ⟨hnone, rfl⟩
    cases hread : readSegment segment with
    | ok keys => exact absurd ⟨keys, hread⟩ hnone
    | error e => rw [eq_invalidOrder_of_readSegment hread]

/-- An expression is read segment by segment. -/
theorem sortKeys_expression (text : String) :
    sortKeys (.expression text) = gather readSegment (text.toList.splitOn ',') := by
  rw [sortKeys, parts]
  induction text.toList.splitOn ',' with
  | nil => rfl
  | cons segment rest ih =>
    rw [gather_cons, ← ih, readSegment, List.map_cons, List.filter_cons]
    cases (Text.trim segment).isEmpty with
    | true =>
      rw [if_neg (by decide)]
      cases ((rest.map Text.trim).filter (!·.isEmpty)).mapM readPart <;> rfl
    | false =>
      rw [if_pos Bool.not_false, List.mapM_cons]
      cases readPart (Text.trim segment) with
      | error e => rfl
      | ok key => cases ((rest.map Text.trim).filter (!·.isEmpty)).mapM readPart <;> rfl

/-! ### Terms -/

section Names

variable {term : SortTerm} {name : String} {e : CompileError}

theorem checkedName_eq_ok_iff {core : String} : term.checkedName name = .ok core ↔
    ∃ cs, Text.Trims name.toList cs ∧ cs ≠ [] ∧ core = String.ofList cs := by
  simp only [← Text.trim_eq_iff, exists_eq_left', checkedName, List.isEmpty_iff]
  split
  · next hnil => simp [hnil]
  · next hne => simp [hne, eq_comm]

theorem map_checkedName_eq_ok_iff {d : Direction} {keys : List SortKey} :
    ((term.checkedName name).map fun name => [⟨name, d⟩]) = .ok keys ↔
      ∃ cs, Text.Trims name.toList cs ∧ cs ≠ [] ∧ keys = [⟨String.ofList cs, d⟩] := by
  constructor
  · intro hkeys
    obtain ⟨core, hcore, rfl⟩ := map_eq_ok hkeys
    obtain ⟨cs, hcs, hne, rfl⟩ := checkedName_eq_ok_iff.mp hcore
    exact ⟨cs, hcs, hne, rfl⟩
  · rintro ⟨cs, hcs, hne, rfl⟩
    rw [checkedName_eq_ok_iff.mpr ⟨cs, hcs, hne, rfl⟩]
    rfl

theorem checkedName_eq_error_iff : term.checkedName name = .error e ↔
    Text.IsBlankText name.toList ∧ e = .invalidOrder ("missing field in '" ++ term.text ++ "'") := by
  simp only [← Text.trim_eq_nil_iff, checkedName, List.isEmpty_iff]
  split
  · next hnil => simp [hnil, eq_comm]
  · next hne => simp [hne]

end Names

theorem sortKeys_eq_ok_iff {term : SortTerm} {keys : List SortKey} : term.sortKeys = .ok keys ↔ Reads term keys := by
  cases term with
  | field name =>
    rw [sortKeys, map_checkedName_eq_ok_iff]
    constructor
    · rintro ⟨cs, hcs, hne, rfl⟩
      exact .field hcs hne
    · intro hreads
      cases hreads with
      | field hcs hne => exact ⟨_, hcs, hne, rfl⟩
  | directed name d =>
    rw [sortKeys, map_checkedName_eq_ok_iff]
    constructor
    · rintro ⟨cs, hcs, hne, rfl⟩
      exact .directed hcs hne
    · intro hreads
      cases hreads with
      | directed hcs hne => exact ⟨_, hcs, hne, rfl⟩
  | expression text =>
    rw [sortKeys_expression, gather_eq_ok_iff]
    simp only [readSegment_eq_ok_iff]
    constructor
    · rintro ⟨readings, hreadings, rfl⟩
      exact .expression hreadings
    · intro hreads
      cases hreads with
      | expression hsegments => exact ⟨_, hsegments, rfl⟩

theorem sortKeys_eq_error_iff {term : SortTerm} {e : CompileError} :
    term.sortKeys = .error e ↔ ∃ clause, Offends term clause ∧ e = .invalidOrder clause := by
  cases term with
  | field name =>
    rw [sortKeys, map_eq_error_iff, checkedName_eq_error_iff]
    constructor
    · rintro ⟨hblank, rfl⟩
      exact ⟨_, .field hblank, rfl⟩
    · rintro ⟨clause, hoffends, rfl⟩
      cases hoffends with
      | field hblank => exact ⟨hblank, rfl⟩
  | directed name d =>
    rw [sortKeys, map_eq_error_iff, checkedName_eq_error_iff]
    constructor
    · rintro ⟨hblank, rfl⟩
      exact ⟨_, .directed hblank, rfl⟩
    · rintro ⟨clause, hoffends, rfl⟩
      cases hoffends with
      | directed hblank => exact ⟨hblank, rfl⟩
  | expression text =>
    rw [sortKeys_expression, gather_eq_error_iff]
    simp only [exists_readSegment_iff, readSegment_eq_error_iff]
    constructor
    · rintro ⟨before, segment, after, hsplit, hbefore, hsegment, core, hcore, rfl⟩
      exact ⟨_, .expression hsplit hbefore hsegment hcore, rfl⟩
    · rintro ⟨clause, hoffends, rfl⟩
      cases hoffends with
      | expression hsplit hbefore hsegment hcore => exact ⟨_, _, _, hsplit, hbefore, hsegment, _, hcore, rfl⟩

/-! ### Terms as expressions -/

/-- The field and direction that a term gives by themselves, as they are written. -/
def key? : SortTerm → Option SortKey
  | field name => some ⟨name, .ascending⟩
  | directed name direction => some ⟨name, direction⟩
  | expression _ => none

theorem comma_not_mem_of_trims {cs core : List Char} (hcore : Text.Trims cs core) (hcomma : ',' ∉ core) : ',' ∉ cs := by
  obtain ⟨lead, trail, hlead, htrail, rfl, -⟩ := hcore
  have hblank : ∀ {cs : List Char}, Text.IsBlankText cs → ',' ∉ cs := fun hcs hmem => absurd (hcs ',' hmem) (by decide)
  rw [List.mem_append, List.mem_append]
  rintro ((hmem | hmem) | hmem)
  · exact hblank hlead hmem
  · exact hcomma hmem
  · exact hblank htrail hmem

theorem reads_of_segment {text : String} {keys : List SortKey} (hcomma : ',' ∉ text.toList)
    (hsegment : Segment text.toList keys) : Reads (.expression text) keys := by
  have hsegments : List.Forall₂ Segment (text.toList.splitOn ',') [keys] := by
    rw [List.splitOn_eq_singleton hcomma]
    exact .cons hsegment .nil
  rw [← List.flatten_singleton (l := keys)]
  exact .expression hsegments

/-- The text of a term that names a single word is an expression that is read as the term is. -/
theorem reads_text {term : SortTerm} {key : SortKey} {core : List Char} (hkey : term.key? = some key)
    (hcore : Text.Trims key.field.toList core) (hword : Text.IsWord core) (hcomma : ',' ∉ core) :
    Reads term [⟨String.ofList core, key.direction⟩] ∧
      Reads (.expression term.text) [⟨String.ofList core, key.direction⟩] := by
  have hname := comma_not_mem_of_trims hcore hcomma
  cases term with
  | field name =>
    cases hkey
    refine ⟨.field hcore hword.1, reads_of_segment hname ?_⟩
    obtain ⟨lead, trail, hlead, htrail, hcs, -⟩ := hcore
    rw [text, hcs]
    exact .field hlead hword htrail
  | directed name d =>
    cases hkey
    have htext : (directed name d).text.toList = name.toList ++ [' '] ++ d.text.toList := by
      rw [text, String.toList_append, String.toList_append]
      rfl
    refine ⟨.directed hcore hword.1, reads_of_segment ?_ ?_⟩
    · rw [htext]
      simp [hname, d.isWord_text.2]
    · obtain ⟨lead, trail, hlead, htrail, hcs, -⟩ := hcore
      have hgap : Text.IsBlankText (trail ++ [' ']) :=
        fun c hc => (List.mem_append.mp hc).elim (htrail c) fun hc => List.mem_singleton.mp hc ▸ by decide
      have hsegment := Segment.directed hlead hword hgap (by simp) d.isWord_text.1 d.isSpelled_text
        (show Text.IsBlankText [] from nofun)
      rw [htext, hcs]
      simpa using hsegment
  | expression text => cases hkey

/-! ### Whole orders -/

theorem sortKeys_expression_append (s t : String) :
    sortKeys (.expression (s ++ "," ++ t)) = do return (← sortKeys (.expression s)) ++ (← sortKeys (.expression t)) := by
  have hsplit : (s ++ "," ++ t).toList.splitOn ',' = s.toList.splitOn ',' ++ t.toList.splitOn ',' := by
    rw [String.toList_append, String.toList_append, List.append_assoc]
    exact List.splitOn_append_cons_self s.toList t.toList
  rw [sortKeys_expression, sortKeys_expression, sortKeys_expression, hsplit, gather_append]

theorem allSortKeys_singleton (term : SortTerm) : allSortKeys [term] = term.sortKeys := by
  change gather sortKeys [term] = _
  rw [gather_cons]
  cases term.sortKeys with
  | error e => rfl
  | ok keys => exact congrArg Except.ok (List.append_nil keys)

theorem allSortKeys_append (terms rest : List SortTerm) :
    allSortKeys (terms ++ rest) = do return (← allSortKeys terms) ++ (← allSortKeys rest) := gather_append sortKeys terms rest

theorem allSortKeys_eq_ok_iff {terms : List SortTerm} {keys : List SortKey} : allSortKeys terms = .ok keys ↔
    ∃ readings, List.Forall₂ Reads terms readings ∧ keys = readings.flatten := by
  change gather sortKeys terms = _ ↔ _
  simp only [gather_eq_ok_iff, sortKeys_eq_ok_iff]

theorem allSortKeys_eq_error_iff {terms : List SortTerm} {e : CompileError} : allSortKeys terms = .error e ↔
    ∃ clause, FirstOffence terms clause ∧ e = .invalidOrder clause := by
  change gather sortKeys terms = _ ↔ _
  simp only [gather_eq_error_iff, exists_sortKeys_iff, sortKeys_eq_error_iff]
  constructor
  · rintro ⟨before, term, after, rfl, hbefore, clause, hoffends, rfl⟩
    exact ⟨clause, ⟨before, term, after, rfl, hbefore, hoffends⟩, rfl⟩
  · rintro ⟨clause, ⟨before, term, after, rfl, hbefore, hoffends⟩, rfl⟩
    exact ⟨before, term, after, rfl, hbefore, clause, hoffends, rfl⟩

/-- An order can be read just if each of its terms is well formed, and then it is read as the grammar has it, term by term
and segment by segment; otherwise the first clause at fault is reported. So lists of terms are read one after the other,
commas do for expressions what lists do, and the text of a term that names a single word is read as the term. -/
theorem orders_read_by_grammar :
    (∀ terms : List SortTerm,
      ((∃ keys, allSortKeys terms = .ok keys) ↔ ∀ term ∈ terms, term.WellFormed) ∧
      (∀ keys, allSortKeys terms = .ok keys ↔ ∃ readings, List.Forall₂ Reads terms readings ∧ keys = readings.flatten) ∧
      ∀ e, allSortKeys terms = .error e ↔ ∃ clause, FirstOffence terms clause ∧ e = .invalidOrder clause) ∧
    (∀ terms rest : List SortTerm,
      allSortKeys (terms ++ rest) = do return (← allSortKeys terms) ++ (← allSortKeys rest)) ∧
    (∀ s t : String, allSortKeys [.expression (s ++ "," ++ t)] = allSortKeys [.expression s, .expression t]) ∧
    ∀ (term : SortTerm) (key : SortKey) (core : List Char), term.key? = some key → Text.Trims key.field.toList core →
      Text.IsWord core → ',' ∉ core →
      allSortKeys [term] = .ok [⟨String.ofList core, key.direction⟩] ∧
      allSortKeys [.expression term.text] = allSortKeys [term] := by
  refine ⟨fun terms => ⟨exists_allSortKeys_iff terms, fun _ => allSortKeys_eq_ok_iff, fun _ => allSortKeys_eq_error_iff⟩,
    allSortKeys_append, fun s t => ?_, fun term key core hkey hcore hword hcomma => ?_⟩
  · have hpair := allSortKeys_append [.expression s] [.expression t]
    rw [allSortKeys_singleton, allSortKeys_singleton, ← sortKeys_expression_append, ← allSortKeys_singleton] at hpair
    exact hpair.symm
  · obtain ⟨hterm, htext⟩ := reads_text hkey hcore hword hcomma
    rw [allSortKeys_singleton, allSortKeys_singleton, sortKeys_eq_ok_iff.mpr hterm, sortKeys_eq_ok_iff.mpr htext]
    exact ⟨rfl, rfl⟩

/-! ### A title between blanks, and a part with a wrong direction -/

theorem titles_read :
    allSortKeys [.expression "\ttitle  descending"] = .ok [⟨"title", .descending⟩] ∧
    allSortKeys [.directed " title" .ascending, .expression "a DESC,, b up ,c d e"] = .error (.invalidOrder "b up") := by
  constructor
  · have htrims : Text.Trims "\ttitle ".toList "title".toList := Text.trim_eq_iff.mp (by decide)
    obtain ⟨hterm, htext⟩ :=
      orders_read_by_grammar.2.2.2 (.directed "\ttitle " .descending) _ _ rfl htrims (by decide) (by decide)
    rw [hterm] at htext
    exact htext
  · refine ((orders_read_by_grammar.1 _).2.2 _).mpr ⟨_, ⟨[_], _, [], rfl, ?_, ?_⟩, rfl⟩
    · exact List.forall_mem_singleton.mpr (show ¬ Text.IsBlankText " title".toList by decide)
    · have hsplit : "a DESC,, b up ,c d e".toList.splitOn ',' =
          ["a DESC".toList, []] ++ " b up ".toList :: ["c d e".toList] := by decide
      have hbefore : ∀ part ∈ ["a DESC".toList, []], IsPart part := List.forall_mem_cons.mpr
        ⟨exists_readSegment_iff.mp ⟨[⟨"a", .descending⟩], rfl⟩, List.forall_mem_singleton.mpr (isPart_of_blank nofun)⟩
      have hsegment : readSegment " b up ".toList = .error (.invalidOrder "b up") := rfl
      exact .expression hsplit hbefore (readSegment_eq_error_iff.mp hsegment).1 (Text.trim_eq_iff.mp (by decide))

end SortTerm

end DocQuery
