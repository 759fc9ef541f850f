import DocQuery.Collection.Error
import DocQuery.Query.Option
import DocQuery.Query.SortTerm
import DocQuery.Selector.Path
import DocQuery.StoreValue.Order

/-!
# Retrieval

The options of a request say what is given of the documents that match: how many are left out at the
start and how many are given at most, in which order, and with which fields. Options are decoded one
after the other, and the first malformed one is reported. The documents are sorted stably, then cut, and
the fields are chosen last. A sort asks for documents that its fields order consistently.
-/

namespace DocQuery

/-- Decoded options of a request. -/
structure Retrieval where
  /-- The number of documents left out at the start. -/
  skip : Nat
  /-- The greatest number of documents given; zero is no limit. -/
  limit : Nat
  /-- The fields given besides the identity; with none listed, all are. -/
  fields : List String
  sort : List SortKey
deriving DecidableEq, Inhabited

namespace Retrieval

def everything : Retrieval := ⟨0, 0, [], []⟩

/-! ### Decoding -/

def readCount (option : String) (v : StoreValue) : Except OptionsError Nat :=
  match v.integer? with
  | some n => if 0 ≤ n.toInt then .ok n.toInt.toNat else .error (.badCount option v)
  | none => .error (.badCount option v)

def readFieldName : StoreValue → Except OptionsError String
  | .string s => .ok s
  | v => .error (.badFieldName v)

def readFields : StoreValue → Except OptionsError (List String)
  | .array items => items.mapM readFieldName
  | v => .error (.badFields v)

/-- Decodes a direction: its name, or one and minus one. -/
def direction? : StoreValue → Option Direction
  | .string s => Direction.ofText? s
  | v => v.integer?.bind fun n =>
    if n = 1 then some .ascending else if n = -1 then some .descending else none

/-- Decodes a field to sort by with its direction. -/
def sortKey? : StoreValue → Option SortKey
  | .array [.string field, direction] => (direction? direction).map fun d => ⟨field, d⟩
  | _ => none

def readSort (v : StoreValue) : Except OptionsError (List SortKey) :=
  match v.items?.bind (·.mapM sortKey?) with
  | some keys => .ok keys
  | none => .error (.badSort v)

/-- Takes one more option into account. -/
def set (r : Retrieval) (option : String) (v : StoreValue) : Except OptionsError Retrieval :=
  match QueryOption.ofName? option with
  | some .skip => (readCount option v).map fun n => { r with skip := n }
  | some .limit => (readCount option v).map fun n => { r with limit := n }
  | some .fields => (readFields v).map fun names => { r with fields := names }
  | some .sort => (readSort v).map fun keys => { r with sort := keys }
  | none => .error (.unknownOption option)

def ofOptions (options : Document) : Except OptionsError Retrieval :=
  options.foldlM (fun r option => r.set option.1 option.2) everything

/-! ### Giving documents -/

/-- The order of two documents by a list of fields, of which each decides what those before it leave
tied. -/
def order : List SortKey → Document → Document → Ordering
  | [], _, _ => .eq
  | key :: rest, d, e =>
    (key.direction.orient (StoreValue.sortOrder (d.lookUp? key.field) (e.lookUp? key.field))).then
      (order rest d e)

/-- Puts a document into a list that is sorted from the last to the first, after those that it comes before. -/
def place (keys : List SortKey) (d : Document) : List Document → List Document
  | [] => [d]
  | e :: rest => if order keys d e = .lt then e :: place keys d rest else d :: e :: rest

/-- Sorts documents stably by a list of fields: each in turn goes in front of those before it that it comes
before. This stands for a stable sort of any kind only where the fields order the documents consistently. Where
they do not, as with doubles that are no numbers, a sort is free to leave them in any order, or to fail. -/
def sorted (keys : List SortKey) (ds : List Document) : List Document :=
  (ds.foldl (fun placed d => place keys d placed) []).reverse

/-- The documents left when some are left out at the start and at most `limit` are given. -/
def slice (skip limit : Nat) (ds : List Document) : List Document :=
  if limit = 0 then ds.drop skip else (ds.drop skip).take limit

/-- The fields of a document with the given names, in the order of the names. -/
def pick (d : Document) (names : List String) : List (String × StoreValue) :=
  names.filterMap fun name => (d.get? name).map fun v => (name, v)

/-- The part of a document that a list of fields chooses: its identity and the listed fields that it
has, each once. -/
def project (names : List String) (d : Document) : Document :=
  if names.isEmpty then d else Entries.ofList (pick d (identityField :: names))

/-- What is given of the documents that match. -/
def apply (r : Retrieval) (ds : List Document) : List Document :=
  (slice r.skip r.limit (sorted r.sort ds)).map (project r.fields)

end Retrieval

end DocQuery
