import DocQuery.Scope.Execution

/-!
# Steps of a session

What can be asked of a session, and what it answers. Models, collections and scopes go by names, so a
step may name something that does not exist. Between the steps on scopes other things happen to the store.
If nothing else is said, a session is one of models of attributes on a database.
-/

namespace DocQuery

inductive Derivation where
  | having (cs : Conditions)
  | orderBy (terms : List SortTerm)
  | selecting (fields : List String)
  | limitedTo (n : Nat)
  | skipping (n : Nat)
  /-- From the collection with the given key. -/
  | readingFrom (key : String)
  /-- With the clauses of the scope of the given name. -/
  | merge (other : String)
  | without (clause : Clause)
  | copy
  | findAllBy (field : String) (v : Value)

inductive Question (M : ModelKind := Model.kind) where
  | criteria
  | compile
  | records
  | count
  | size
  | isEmpty
  | isNonempty
  | hasDocument
  /-- Whether some record passes a test. -/
  | hasPassing (test : M.Record → Bool)
  | first
  | last
  | item (n : Nat)
  | find (id : Value)
  | findBy (field : String) (v : Value)
  /-- Whether the scope stands for the same query as the scope of the given name. -/
  | sameScope (other : String)
  /-- Whether the records of the scope are the given ones. -/
  | sameRecords (rs : List M.Record)
  | source
  | model
  | description

inductive Answer (M : ModelKind := Model.kind) (B : Backend := Database.backend) where
  | done
  | reloaded (r : Except (QueryError M B) Unit)
  | identity (id : StoreValue)
  | removed (n : Except StoreError Nat)
  | log (requests : List Request)
  | criteria (c : Criteria)
  | query (q : Except CompileError Query)
  | records (rs : Except (QueryError M B) (List M.Record))
  | record (r : Except (QueryError M B) (Option M.Record))
  | number (n : Except (QueryError M B) Nat)
  | truth (b : Except (QueryError M B) Bool)
  | text (s : String)
  /-- A name that the session does not know; the step did nothing. -/
  | unknown (name : String)

inductive Step (M : ModelKind := Model.kind) (B : Backend := Database.backend) where
  | start (model scope : String)
  /-- Work on the store, with an answer of its own. -/
  | work (change : B.State → Answer M B × B.State)
  | derive (scope : String) (d : Derivation) (new : String)
  | reset (scope : String)
  | reload (scope : String)
  /-- Gives up a scope for its records. -/
  | intoRecords (scope : String)
  | ask (scope : String) (q : Question M)

/-- The name of the scope that a step is about. -/
def Step.scope? {M : ModelKind} {B : Backend} : Step M B → Option String
  | derive name _ _ | reset name | reload name | intoRecords name | ask name _ => some name
  | _ => none

structure Report (M : ModelKind := Model.kind) (B : Backend := Database.backend) where
  answer : Answer M B
  /-- Whether the scope that the step is about is loaded after it, if there still is such a scope. -/
  loaded : Option Bool
  /-- What the step leaves of the world. -/
  world : World M B

end DocQuery
