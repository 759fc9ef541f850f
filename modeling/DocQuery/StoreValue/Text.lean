import DocQuery.Calendar.Instant
import DocQuery.Double.Notation
import DocQuery.StoreValue.Basic

/-!
# The text of a store value

Error messages quote the store values they are about. Texts stand between quotes without escapes,
arrays and documents are written in brackets with blanks inside them, and every remaining type has a
form of its own.
-/

namespace DocQuery.StoreValue

open Text

/-- Writes bits as hexadecimal digits, most significant first. -/
def hexText (width n : Nat) : String :=
  let cs := Nat.toDigits 16 n
  String.ofList (List.replicate (width - cs.length) '0' ++ cs)

/-- The digits of base 64. -/
def base64Digits : List Char :=
  "ABCDEFGHIJKLMNOPQRSTUVWXYZabcdefghijklmnopqrstuvwxyz0123456789+/".toList

def base64Digit (n : Nat) : Char := base64Digits.getD (n % 64) '='

/-- Bytes in base 64, three of them in four digits, padded at the end. -/
def base64 : List UInt8 → List Char
  | [] => []
  | [a] => [base64Digit (a.toNat / 4), base64Digit (a.toNat * 16), '=', '=']
  | [a, b] =>
    let n := a.toNat * 256 + b.toNat
    [base64Digit (n / 1024), base64Digit (n / 16), base64Digit (n * 4), '=']
  | a :: b :: c :: rest =>
    let n := (a.toNat * 256 + b.toNat) * 256 + c.toNat
    base64Digit (n / 262144) :: base64Digit (n / 4096) :: base64Digit (n / 64) :: base64Digit n :: base64 rest

mutual

def text : StoreValue → String
  | .null => "null"
  | .undefined => "undefined"
  | .boolean b => if b then "true" else "false"
  | .int32 n => String.ofList (integerText n.toInt)
  | .int64 n => String.ofList (integerText n.toInt)
  | .double x => x.text
  | .string s => "\"" ++ s ++ "\""
  | .symbol s => "Symbol(\"" ++ s ++ "\")"
  | .dateTime millis => "DateTime(\"" ++ Instant.text millis ++ "\")"
  | .objectId id => "ObjectId(\"" ++ hexText 24 id.number ++ "\")"
  | .array items => "[" ++ ", ".intercalate (itemTexts items) ++ "]"
  | .document fields =>
    if fields.isEmpty then "\x7b\x7d" else "\x7b " ++ ", ".intercalate (fieldTexts fields) ++ " \x7d"
  | .regex pattern options => "/" ++ pattern ++ "/" ++ options
  | .javascript code => code
  | .scopedJavascript code _ => code
  | .timestamp time increment =>
    "Timestamp(" ++ String.ofList (digits time.toNat) ++ ", " ++ String.ofList (digits increment.toNat) ++ ")"
  | .binary subtype bytes =>
    "Binary(0x" ++ hexText 1 subtype.toNat ++ ", " ++ String.ofList (base64 bytes) ++ ")"
  | .decimal128 bits => "Decimal128(0x" ++ hexText 32 bits.toNat ++ ")"
  | .minKey => "MinKey"
  | .maxKey => "MaxKey"
termination_by structural v => v

def itemTexts : List StoreValue → List String
  | [] => []
  | v :: rest => text v :: itemTexts rest
termination_by structural vs => vs

def fieldTexts : List (String × StoreValue) → List String
  | [] => []
  | (k, v) :: rest => ("\"" ++ k ++ "\": " ++ text v) :: fieldTexts rest
termination_by structural fields => fields

end

example : (document [("k", array [int32 1, string "s"]), ("l", double ⟨0⟩)]).text =
    "\x7b \"k\": [1, \"s\"], \"l\": 0 \x7d" := by
  decide +kernel

example : base64 [77, 97, 110, 77] = "TWFuTQ==".toList := by decide +kernel

end DocQuery.StoreValue
