import DocQuery.Query.Compile
import DocQuery.Schema

/-!
# Scopes

A scope collects the clauses of a query on a model, one call after the other, and runs nothing. Each
call gives a new scope with the clauses of the old one and a change to one of them; the old one stays as
it was. Fields, sort terms and conditions add up, and of limits, offsets and sources the last one
counts. Once a scope has been loaded it keeps its records; a scope made from it starts without any.
-/

namespace DocQuery

inductive Clause where
  | select
  | order
  | conditions
  | limit
  | offset
  | source
deriving DecidableEq, Inhabited

/-- A query on a model that is being put together. -/
structure Scope (M : ModelKind) where
  model : Schema M
  select : List String
  order : List SortTerm
  /-- The sets of conditions, in the order in which they were added. -/
  conditions : List Conditions
  limit : Option Nat
  offset : Option Nat
  /-- Where the documents come from, if not from the collection of the model. -/
  source : Option Source
  /-- The records, once the scope is loaded. -/
  records : Option (List M.Record)

namespace Scope

variable {M : ModelKind}

/-- The scope of all records of a model. -/
def all (m : Schema M) : Scope M := ⟨m, [], [], [], none, none, none, none⟩

/-- The scope with the same clauses that is not loaded. -/
def unloaded (s : Scope M) : Scope M := { s with records := none }

def isLoaded (s : Scope M) : Bool := s.records.isSome

/-- Narrows a scope to the records that also meet the conditions. -/
def having (s : Scope M) (cs : Conditions) : Scope M :=
  { s.unloaded with conditions := s.conditions ++ [cs] }

def orderBy (s : Scope M) (terms : List SortTerm) : Scope M :=
  { s.unloaded with order := s.order ++ terms }

def selecting (s : Scope M) (fields : List String) : Scope M :=
  { s.unloaded with select := s.select ++ fields }

/-- Limits the number of records. -/
def limitedTo (s : Scope M) (n : Nat) : Scope M := { s.unloaded with limit := some n }

/-- Leaves records out at the start. -/
def skipping (s : Scope M) (n : Nat) : Scope M := { s.unloaded with offset := some n }

/-- Takes the documents from another collection. -/
def readingFrom (s : Scope M) (source : Source) : Scope M := { s.unloaded with source := some source }

/-- Adds the clauses of a second scope, whose limit, offset and source count if it has them. -/
def merge (s t : Scope M) : Scope M :=
  { s.unloaded with
    select := s.select ++ t.select
    order := s.order ++ t.order
    conditions := s.conditions ++ t.conditions
    limit := t.limit.or s.limit
    offset := t.offset.or s.offset
    source := t.source.or s.source }

def without (s : Scope M) (clause : Clause) : Scope M :=
  match clause with
  | .select => { s.unloaded with select := [] }
  | .order => { s.unloaded with order := [] }
  | .conditions => { s.unloaded with conditions := [] }
  | .limit => { s.unloaded with limit := none }
  | .offset => { s.unloaded with offset := none }
  | .source => { s.unloaded with source := none }

/-- Narrows a scope to the records with the given value in a field. -/
def findAllBy (s : Scope M) (field : String) (v : Value) : Scope M := s.having [(.field field, v)]

/-- The collection that the documents come from. -/
def currentSource (s : Scope M) : Source := s.source.getD s.model.source

/-- The criteria that the clauses add up to. There are conditions as soon as a set of them was added,
even an empty one. -/
def criteria (s : Scope M) : Criteria where
  conditions := if s.conditions.isEmpty then none else some (s.conditions.foldl Conditions.merge [])
  select := s.select
  order := s.order
  limit := s.limit
  offset := s.offset

def compile (s : Scope M) : Except CompileError Query := Query.compile s.model.properties s.criteria

/-- Whether two scopes stand for the same query on the same model, loaded or not. -/
def same (s t : Scope M) : Bool :=
  s.model.name = t.model.name && s.model.properties = t.model.properties &&
    s.currentSource.name = t.currentSource.name && s.criteria.same t.criteria

end Scope

end DocQuery
