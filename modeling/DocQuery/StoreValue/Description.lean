import DocQuery.StoreValue.Text
import DocQuery.Text.Labelled
import DocQuery.Text.Quoted

/-!
# Descriptions of store values

The description of a store value tells its exact type and its contents, for people to read. Values that
only their type tells apart, such as integers of different widths, have different descriptions.
-/

namespace DocQuery.StoreValue

open Text

/-- The name of a kind of binary data. The numbers from 128 are free for users, and those below that
have no name are reserved. -/
def binaryKind (subtype : UInt8) : String :=
  match subtype.toNat with
  | 0 => "Generic"
  | 1 => "Function"
  | 2 => "BinaryOld"
  | 3 => "UuidOld"
  | 4 => "Uuid"
  | 5 => "Md5"
  | 6 => "Encrypted"
  | 7 => "Column"
  | 8 => "Sensitive"
  | 9 => "Vector"
  | n => labelled (if n < 128 then "Reserved" else "UserDefined") (String.ofList (digits n))

mutual

/-- The description of a store value. A decimal is described by its bytes. -/
def describe : StoreValue → String
  | .null => "Null"
  | .undefined => "Undefined"
  | .boolean b => labelled "Boolean" (if b then "true" else "false")
  | .int32 n => labelled "Int32" (String.ofList (integerText n.toInt))
  | .int64 n => labelled "Int64" (String.ofList (integerText n.toInt))
  | .double x => labelled "Double" (x.render .literal)
  | .string s => labelled "String" (quoted s)
  | .symbol s => labelled "Symbol" (quoted s)
  | .dateTime millis => labelled "DateTime" (Instant.text millis)
  | .objectId id => labelled "ObjectId" (quoted (hexText 24 id.number))
  | .array items => labelled "Array" (bracketed (describeItems items))
  | .document fields => labelled "Document" (braced (describeFields fields))
  | .regex pattern options => record "Regex" [("pattern", quoted pattern), ("options", quoted options)]
  | .javascript code => labelled "JavaScriptCode" (quoted code)
  | .scopedJavascript code scope =>
    record "JavaScriptCodeWithScope"
      [("code", quoted code), ("scope", labelled "Document" (braced (describeFields scope)))]
  | .timestamp time increment =>
    record "Timestamp"
      [("time", String.ofList (digits time.toNat)), ("increment", String.ofList (digits increment.toNat))]
  | .binary subtype bytes =>
    record "Binary"
      [("subtype", binaryKind subtype),
        ("bytes", bracketed (bytes.map fun b => String.ofList (digits b.toNat)))]
  | .decimal128 bits => labelled "Decimal128" (hexText 32 bits.toNat)
  | .minKey => "MinKey"
  | .maxKey => "MaxKey"
termination_by structural v => v

def describeItems : List StoreValue → List String
  | [] => []
  | v :: rest => describe v :: describeItems rest
termination_by structural vs => vs

def describeFields : List (String × StoreValue) → List String
  | [] => []
  | (k, v) :: rest => entry (quoted k) (describe v) :: describeFields rest
termination_by structural fields => fields

end

example : (array [int64 1, int32 2, document [("k", undefined)]]).describe =
    "Array([Int64(1), Int32(2), Document(\x7b\"k\": Undefined\x7d)])" := by
  decide +kernel

end DocQuery.StoreValue
