import DocQuery.Query.Operator
import DocQuery.Selector.Error
import DocQuery.Selector.Path
import DocQuery.StoreValue.Order

/-!
# Matching documents with selectors

A selector asks something of the values at paths of a document, and a document matches when every
demand is met. A demand that is a non-empty document with operator tokens for all of its names applies
those operators; any other demand is a value to equal. An array stands for its items as well as for
itself, and a missing value equals null. The demands are tested in order, up to the first that is not
met or cannot be tested.
-/

namespace DocQuery

namespace Selector

/-- Whether a value, which may be missing, equals the expected one, has it for an item or, being an
array, is the same array. -/
def holds (value : Option StoreValue) (expected : StoreValue) : Bool :=
  match value with
  | none => (expected matches .null)
  | some (.array items) =>
    items.any (·.equals expected) || (match expected with
      | .array others => StoreValue.sameItems others items
      | _ => false)
  | some v => v.equals expected

/-- Whether a value or one of its items stands to the operand in an accepted order. -/
def stands (accept : Ordering → Bool) (value : Option StoreValue) (operand : StoreValue) : Bool :=
  match value with
  | none => false
  | some (.array items) => items.any fun item => (item.compare? operand).any accept
  | some v => (v.compare? operand).any accept

/-- The items of an operand that has to be an array. -/
def operandItems (c : Comparison) (operand : StoreValue) : Except SelectorError (List StoreValue) :=
  match operand.items? with
  | some items => .ok items
  | none => .error (.notAnArray c.token operand)

/-- Whether an array has an item equal to each of the required values. -/
def holdsAll (value : Option StoreValue) (required : List StoreValue) : Bool :=
  match value with
  | some (.array items) => required.all fun r => items.any (·.equals r)
  | _ => false

/-- Whether a value is an array of the given length. -/
def hasLength (value : Option StoreValue) (size : Int64) : Bool :=
  match value with
  | some (.array items) => (items.length : Int) = size.toInt
  | _ => false

/-- Whether an operand asks for a value to be there: the truth value true, or a number other than zero. -/
def wantsPresence (operand : StoreValue) : Bool :=
  match operand with
  | .boolean b => b
  | v => v.number?.any fun x => !x.isZero

/-- The integer whose remainder is taken: a double is cut off toward zero. -/
def wholeNumber? (v : StoreValue) : Option Int64 :=
  match v.integer? with
  | some n => some n
  | none => v.number?.map Double.truncate

/-- The divisor and the remainder of a remainder test. -/
def divisorRemainder (operand : StoreValue) (items : List StoreValue) :
    Except SelectorError (Int64 × Int64) :=
  match items.map StoreValue.integer? with
  | [some d, some r] => if d = 0 then .error (.badRemainder operand) else .ok (d, r)
  | _ => .error (.badRemainder operand)

/-- Applies a comparison to a value, which may be missing. The remainder takes the sign of the dividend. -/
def evaluate (value : Option StoreValue) (c : Comparison) (operand : StoreValue) :
    Except SelectorError Bool :=
  match c with
  | .equal => .ok (holds value operand)
  | .unequal => .ok (!holds value operand)
  | .above => .ok (stands (·.isGT) value operand)
  | .atLeast => .ok (stands (·.isGE) value operand)
  | .below => .ok (stands (·.isLT) value operand)
  | .atMost => .ok (stands (·.isLE) value operand)
  | .oneOf => (operandItems c operand).map fun items => items.any (holds value)
  | .noneOf => (operandItems c operand).map fun items => !items.any (holds value)
  | .allOf => (operandItems c operand).map (holdsAll value)
  | .size =>
    match operand.integer? with
    | some n => .ok (hasLength value n)
    | none => .error (.badSize operand)
  | .present => .ok (value.isSome == wantsPresence operand)
  | .remainder => do
    let (d, r) ← divisorRemainder operand (← operandItems c operand)
    return (value.bind wholeNumber?).any fun n => n % d = r

/-- Applies the operator of a token to a value, which may be missing. -/
def evaluateToken (value : Option StoreValue) (token : String) (operand : StoreValue) :
    Except SelectorError Bool :=
  match Comparison.ofToken? token with
  | some c => evaluate value c operand
  | none => .error (.unknownOperator token)

/-- Whether a demand applies operators: it has fields, and all of their names start with a dollar sign. -/
def isOperators (fields : Document) : Bool :=
  !fields.isEmpty && fields.all fun e => e.1.toList.head? = some '$'

/-- Whether all tests of a list succeed, tested in order up to the first that does not. -/
def allOk {ε α : Type} (test : α → Except ε Bool) : List α → Except ε Bool
  | [] => .ok true
  | x :: rest =>
    match test x with
    | .ok true => allOk test rest
    | other => other

/-- Whether a value, which may be missing, meets a demand. -/
def meets (value : Option StoreValue) (demand : StoreValue) : Except SelectorError Bool :=
  match demand with
  | .document fields =>
    if isOperators fields then allOk (fun e => evaluateToken value e.1 e.2) fields
    else .ok (holds value demand)
  | _ => .ok (holds value demand)

end Selector

/-- Whether a document meets all demands of a selector. -/
def Document.satisfies (d selector : Document) : Except SelectorError Bool :=
  Selector.allOk (fun e => Selector.meets (d.lookUp? e.1) e.2) selector

end DocQuery
