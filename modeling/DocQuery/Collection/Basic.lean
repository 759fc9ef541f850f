import DocQuery.Collection.Retrieval
import DocQuery.Selector.Match

/-!
# Collections

A collection keeps documents in the order of their insertion and counts the requests it serves. Every
document has an identity: one that is inserted without is given a fresh one as its last field. A request
whose options or selector are malformed is rejected; the options are looked at first, and the selector
only as far as the documents of the collection make it.
-/

namespace DocQuery

structure Collection where
  name : String
  documents : List Document
  /-- The number of find requests served. -/
  finds : Nat
  /-- The number of count requests served. -/
  counts : Nat
deriving Inhabited

namespace Collection

def empty (name : String) : Collection := ⟨name, [], 0, 0⟩

def size (c : Collection) : Nat := c.documents.length

/-- Inserts a document, which gets the fresh identity if it has none. Gives its identity. -/
def insert (c : Collection) (fresh : StoreValue) (d : Document) : StoreValue × Collection :=
  match d.get? identityField with
  | some id => (id, { c with documents := c.documents ++ [d] })
  | none => (fresh, { c with documents := c.documents ++ [d.put identityField fresh] })

/-- The first error that matching the documents with a selector gives. -/
def firstError? (selector : Document) (ds : List Document) : Option SelectorError :=
  ds.findSome? fun d =>
    match d.satisfies selector with
    | .ok _ => none
    | .error e => some e

/-- Whether a document is kept when those that match a selector are removed. -/
def isKept (selector d : Document) : Bool :=
  match d.satisfies selector with
  | .ok matched => !matched
  | .error _ => true

/-- Removes the documents that match a selector, and gives their number or the first error. -/
def remove (c : Collection) (selector : Document) : Except StoreError Nat × Collection :=
  let kept := c.documents.filter (isKept selector)
  let answer : Except StoreError Nat :=
    match firstError? selector c.documents with
    | some e => .error (.selector e)
    | none => .ok (c.size - kept.length)
  (answer, { c with documents := kept })

/-- The documents that match a selector, in order, or the first error. -/
def matching (selector : Document) : List Document → Except SelectorError (List Document)
  | [] => .ok []
  | d :: rest => do
    let matched ← d.satisfies selector
    let found ← matching selector rest
    return if matched then d :: found else found

def search (c : Collection) (selector options : Document) : Except StoreError (List Document) := do
  let retrieval ← (Retrieval.ofOptions options).mapError .options
  let found ← (matching selector c.documents).mapError .selector
  return retrieval.apply found

/-- The number that a count request gives: that of all documents that match, whatever the options. -/
def tally (c : Collection) (selector options : Document) : Except StoreError Nat := do
  let _ ← (Retrieval.ofOptions options).mapError .options
  let found ← (matching selector c.documents).mapError .selector
  return found.length

def find (c : Collection) (selector options : Document) : Except StoreError (List Document) × Collection :=
  (c.search selector options, { c with finds := c.finds + 1 })

def count (c : Collection) (selector options : Document) : Except StoreError Nat × Collection :=
  (c.tally selector options, { c with counts := c.counts + 1 })

end Collection

end DocQuery
