import DocQuery.Database.Basic
import DocQuery.Scope.Basic
import DocQuery.World

/-!
# Running scopes

A scope runs when an answer needs it to. It is compiled first, then the indexes of its model are set up
unless that has been done, and only then is a single request sent. Loading keeps the records if all of
them could be built, and nothing otherwise. A loaded scope answers from its records; counting alone asks
the store every time, and looking for the first record or for any document asks for a single one when
the scope is not loaded.
-/

namespace DocQuery

/-- Why a query has no answer. If nothing else is said, it is one of models of attributes on a database. -/
inductive QueryError (M : ModelKind := Model.kind) (B : Backend := Database.backend) where
  | compile (reason : CompileError)
  | storage (reason : B.Failure)
  | model (reason : M.Failure)

variable {M : ModelKind} {B : Backend}

namespace QueryError

def message : QueryError M B → String
  | compile reason => reason.message
  | storage reason => B.message reason
  | model reason => "Model error: " ++ M.message reason

def isCompile : QueryError M B → Bool
  | compile _ => true
  | _ => false

def isStorage : QueryError M B → Bool
  | storage _ => true
  | _ => false

end QueryError

namespace Scope

/-! ### Requests -/

/-- Compiles a scope and sets up the indexes of its model unless that has been done. -/
def prepare (s : Scope M) (w : World M B) : Except (QueryError M B) Query × World M B :=
  match s.compile with
  | .error e => (.error (.compile e), w)
  | .ok q =>
    if s.model.initialized (w.indexState s.model) then (.ok q, w)
    else
      match w.setUpIndexes s.model with
      | (.ok _, w) => (.ok q, w)
      | (.error e, w) => (.error (.model e), w)

def cursor (s : Scope M) (w : World M B) : Except (QueryError M B) (Cursor B) × World M B :=
  match s.prepare w with
  | (.ok q, w) =>
    let (answer, w) := w.find s.currentSource.key q.selector q.options
    (answer.mapError .storage, w)
  | (.error e, w) => (.error e, w)

def count (s : Scope M) (w : World M B) : Except (QueryError M B) Nat × World M B :=
  match s.prepare w with
  | (.ok q, w) =>
    let (answer, w) := w.count s.currentSource.key q.selector q.options
    (answer.mapError .storage, w)
  | (.error e, w) => (.error e, w)

/-! ### Records -/

/-- The record of one item of a cursor. -/
def recordOf (s : Scope M) (item : Except B.Failure Document) : Except (QueryError M B) M.Record :=
  match item with
  | .ok d => (s.model.record d).mapError .model
  | .error e => .error (.storage e)

def fetch (s : Scope M) (w : World M B) : Except (QueryError M B) (List M.Record) × World M B :=
  let (answer, w) := s.cursor w
  (answer.bind fun items => items.mapM s.recordOf, w)

/-- The records of a scope, got from the store unless it has them, and the scope that keeps them. -/
def load (s : Scope M) (w : World M B) : Except (QueryError M B) (List M.Record) × Scope M × World M B :=
  match s.records with
  | some rs => (.ok rs, s, w)
  | none =>
    match s.fetch w with
    | (.ok rs, w) => (.ok rs, { s with records := some rs }, w)
    | (.error e, w) => (.error e, s, w)

/-- Drops the records of a scope and gets them anew. -/
def reload (s : Scope M) (w : World M B) : Except (QueryError M B) (List M.Record) × Scope M × World M B :=
  s.unloaded.load w

/-- The records of a scope that is given up. -/
def intoRecords (s : Scope M) (w : World M B) : Except (QueryError M B) (List M.Record) × World M B :=
  match s.records with
  | some rs => (.ok rs, w)
  | none => s.fetch w

/-! ### Answers that leave the scope as it is -/

/-- The number of records that a scope has, or that of the documents that match. -/
def size (s : Scope M) (w : World M B) : Except (QueryError M B) Nat × World M B :=
  match s.records with
  | some rs => (.ok rs.length, w)
  | none => s.count w

def isEmpty (s : Scope M) (w : World M B) : Except (QueryError M B) Bool × World M B :=
  let (answer, w) := s.size w
  (answer.map (· == 0), w)

def isNonempty (s : Scope M) (w : World M B) : Except (QueryError M B) Bool × World M B :=
  let (answer, w) := s.size w
  (answer.map (· != 0), w)

/-- The first record. A scope that is not loaded asks for one record only. -/
def first (s : Scope M) (w : World M B) : Except (QueryError M B) (Option M.Record) × World M B :=
  match s.records with
  | some rs => (.ok rs.head?, w)
  | none =>
    let (answer, w) := (s.limitedTo 1).fetch w
    (answer.map List.head?, w)

/-- The first record with the given value in a field. -/
def findBy (s : Scope M) (field : String) (v : Value) (w : World M B) :
    Except (QueryError M B) (Option M.Record) × World M B :=
  (s.findAllBy field v).first w

/-- The record with the given identity. -/
def find (s : Scope M) (id : Value) (w : World M B) : Except (QueryError M B) (Option M.Record) × World M B :=
  s.findBy identityName id w

/-- Whether there is a document. A scope that is not loaded asks for one, and builds no record. -/
def hasDocument (s : Scope M) (w : World M B) : Except (QueryError M B) Bool × World M B :=
  match s.records with
  | some rs => (.ok (!rs.isEmpty), w)
  | none =>
    let (answer, w) := (s.limitedTo 1).cursor w
    (answer.bind fun
      | [] => .ok false
      | .ok _ :: _ => .ok true
      | .error e :: _ => .error (.storage e), w)

end Scope

end DocQuery
