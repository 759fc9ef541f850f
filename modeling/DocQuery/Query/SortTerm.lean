import DocQuery.Query.Error
import DocQuery.Text.Blank

/-!
# Sort terms

The order of a query is a list of terms: a field, a field with a direction, or an expression. An
expression holds fields separated by commas, each with an optional direction after it. Reading the terms
gives the fields to sort by with their directions; blank parts of an expression count for nothing.
-/

namespace DocQuery

inductive Direction where
  | ascending
  | descending
deriving DecidableEq, Inhabited

namespace Direction

def text : Direction → String
  | ascending => "ascending"
  | descending => "descending"

/-- Reads a direction, given by its name or a short form in any case. -/
def ofText? (token : String) : Option Direction :=
  let word := String.ofList (Text.lowerAscii token.toList)
  if word = "asc" ∨ word = "ascending" then some ascending
  else if word = "desc" ∨ word = "descending" then some descending
  else none

/-- An order turned into the given direction. -/
def orient (d : Direction) (o : Ordering) : Ordering :=
  match d with
  | ascending => o
  | descending => o.swap

end Direction

/-- A field to sort by, with its direction. -/
structure SortKey where
  field : String
  direction : Direction
deriving DecidableEq, Inhabited

/-- A term of an order as it was written. -/
inductive SortTerm where
  | field (name : String)
  | directed (name : String) (direction : Direction)
  | expression (text : String)
deriving DecidableEq, Inhabited

namespace SortTerm

def text : SortTerm → String
  | field name => name
  | directed name direction => name ++ " " ++ direction.text
  | expression text => text

/-- The name of the field of a term, trimmed of blanks; it must not be empty. -/
def checkedName (term : SortTerm) (name : String) : Except CompileError String :=
  let trimmed := Text.trim name.toList
  if trimmed.isEmpty then .error (.invalidOrder ("missing field in '" ++ term.text ++ "'"))
  else .ok (String.ofList trimmed)

/-- Reads one part of an expression: a field, or a field and a direction. -/
def readPart (part : List Char) : Except CompileError SortKey :=
  match Text.words part with
  | [name] => .ok ⟨String.ofList name, .ascending⟩
  | [name, direction] =>
    match Direction.ofText? (String.ofList direction) with
    | some d => .ok ⟨String.ofList name, d⟩
    | none => .error (.invalidOrder (String.ofList part))
  | _ => .error (.invalidOrder (String.ofList part))

/-- The parts of an expression between commas, trimmed of blanks, without the empty ones. -/
def parts (text : String) : List (List Char) :=
  ((text.toList.splitOn ',').map Text.trim).filter (!·.isEmpty)

/-- The fields to sort by that a term stands for. -/
def sortKeys (term : SortTerm) : Except CompileError (List SortKey) :=
  match term with
  | field name => (term.checkedName name).map fun name => [⟨name, .ascending⟩]
  | directed name direction => (term.checkedName name).map fun name => [⟨name, direction⟩]
  | expression text => (parts text).mapM readPart

/-- The fields to sort by that a list of terms stands for, in order. -/
def allSortKeys (terms : List SortTerm) : Except CompileError (List SortKey) :=
  (terms.mapM sortKeys).map List.flatten

example : (sortKeys (.expression "  a desc ,b Ascending,")).toOption =
    some [⟨"a", .descending⟩, ⟨"b", .ascending⟩] := by
  decide +kernel

example : (sortKeys (.expression "a, b sideways ")).toOption = none := by decide +kernel

end SortTerm

end DocQuery
