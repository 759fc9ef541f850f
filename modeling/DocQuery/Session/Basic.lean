import DocQuery.Session.Running

/-!
# Sessions on databases

The sessions of models of attributes on a database. Between the steps on scopes documents are inserted into
its collections and removed from them, collections cease to be reachable and become so again, and the logs of
connections are taken.
-/

namespace DocQuery

/-- The work done so far: find and count requests that collections served, and set-ups that models counted. -/
structure Traffic where
  finds : Nat
  counts : Nat
  indexCalls : Nat
deriving DecidableEq

def World.traffic (w : World Model.kind Database.backend) : Traffic where
  finds := w.store.connections.total (·.collection.finds)
  counts := w.store.connections.total (·.collection.counts)
  indexCalls := w.indexes.total (·.calls)

def Report.traffic (r : Report) : Traffic := r.world.traffic

/-- Whether some record has the given value for an attribute. -/
def Question.hasRecord (name : String) (v : Value) : Question :=
  .hasPassing fun r : Attributes => (r.get? name).any (·.same v)

/-- Works on the connection of a key, if there is one. -/
def Database.onConnection (db : Database) (key : String) (f : Connection → Answer × Database) : Answer × Database :=
  match db.connections.get? key with
  | some c => f c
  | none => (.unknown key, db)

namespace Step

def insert (key : String) (d : Document) : Step :=
  .work fun db : Database => db.onConnection key fun c =>
    let (id, db) := db.insert key c d
    (.identity id, db)

def remove (key : String) (selector : Document) : Step :=
  .work fun db : Database => db.onConnection key fun c =>
    let (n, db) := db.remove key c selector
    (.removed n, db)

def setReachable (key : String) (reachable : Bool) : Step :=
  .work fun db : Database => db.onConnection key fun c =>
    (.done, db.withConnection key { c with reachable := reachable })

/-- Takes the log of a connection, which is empty afterwards. -/
def takeLog (key : String) : Step :=
  .work fun db : Database => db.onConnection key fun c => (.log c.log, db.withConnection key { c with log := [] })

end Step

/-- A session on a database with the given models and no scopes. -/
def Session.start (db : Database) (models : Entries String Model) : Session Model.kind Database.backend :=
  begun (.untouched db) (models.map fun e => (e.1, e.2.schema))

end DocQuery
