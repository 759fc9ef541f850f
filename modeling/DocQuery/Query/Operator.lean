import DocQuery.Query.Error
import DocQuery.StoreValue.Basic
import DocQuery.Text.Blank

/-!
# Operators

An operator pairs a field with a comparator. Comparators are written by name, with any number of dollar
signs in front and in any case. The store knows twelve comparisons; a name it does not know is kept as
it was written, and only compiling a condition that uses it fails.
-/

namespace DocQuery

/-- The comparisons that the store knows. -/
inductive Comparison where
  | equal
  | unequal
  | above
  | atLeast
  | below
  | atMost
  | oneOf
  | noneOf
  | allOf
  | size
  | present
  | remainder
deriving DecidableEq, Inhabited

namespace Comparison

def all : List Comparison :=
  [equal, unequal, above, atLeast, below, atMost, oneOf, noneOf, allOf, size, present, remainder]

def name : Comparison → String
  | equal => "eq"
  | unequal => "ne"
  | above => "gt"
  | atLeast => "gte"
  | below => "lt"
  | atMost => "lte"
  | oneOf => "in"
  | noneOf => "nin"
  | allOf => "all"
  | size => "size"
  | present => "exists"
  | remainder => "mod"

/-- The token that stands for a comparison in a selector. -/
def token (c : Comparison) : String := "$" ++ c.name

def ofName? (name : String) : Option Comparison := all.find? (·.name = name)

def ofToken? (token : String) : Option Comparison := all.find? (·.token = token)

/-- Whether the operand is a list of values of the field. -/
def takesList (c : Comparison) : Bool := c = oneOf || c = noneOf || c = allOf

/-- Whether the operand is not a value of the field. -/
def takesLiteral (c : Comparison) : Bool := c = size || c = present || c = remainder

@[simp] theorem ofName?_name (c : Comparison) : ofName? c.name = some c := by cases c <;> decide +kernel

@[simp] theorem ofToken?_token (c : Comparison) : ofToken? c.token = some c := by cases c <;> decide +kernel

end Comparison

/-- A comparator as it was written. -/
inductive Comparator where
  | known (c : Comparison)
  /-- A token that names no comparison of the store. -/
  | unrecognized (token : String)
deriving DecidableEq, Inhabited

namespace Comparator

def parse (token : String) : Comparator :=
  match Comparison.ofName? (String.ofList (Text.lowerAscii (token.toList.dropWhile (· = '$')))) with
  | some c => known c
  | none => unrecognized token

def text : Comparator → String
  | known c => c.name
  | unrecognized token => token

def takesList : Comparator → Bool
  | known c => c.takesList
  | unrecognized _ => false

def takesLiteral : Comparator → Bool
  | known c => c.takesLiteral
  | unrecognized _ => false

/-- The selector token of a comparator. -/
def token : Comparator → Except CompileError String
  | known c => .ok c.token
  | unrecognized token => .error (.invalidOperator token)

end Comparator

/-- A field with a comparator. -/
structure Operator where
  field : String
  comparator : Comparator
deriving DecidableEq, Inhabited

namespace Operator

/-- The operator of a field and a comparator token. -/
def parse (field token : String) : Operator := ⟨field, Comparator.parse token⟩

def text (op : Operator) : String := op.field ++ "." ++ op.comparator.text

/-- The document that applies the operator to an operand in a selector. -/
def fragment (op : Operator) (operand : StoreValue) : Except CompileError Document :=
  match op.comparator with
  | .known c => .ok [(c.token, operand)]
  | .unrecognized _ => .error (.invalidOperator op.text)

end Operator

example : Comparator.parse "$GtE" = .known .atLeast ∧ Comparator.parse "$near" = .unrecognized "$near" := by
  decide +kernel

end DocQuery
