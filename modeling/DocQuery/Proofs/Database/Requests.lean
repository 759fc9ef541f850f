import DocQuery.Database.Basic
import DocQuery.Proofs.World

/-!
# Requests to a database

A request to a database writes itself into the log of one connection and changes nothing that a later request is
answered from. So what a database answers to a request depends on what its connections hold, and databases that hold
the same answer alike.
-/

namespace DocQuery

namespace Connection

theorem find_of_reachable {c : Connection} (hreachable : c.reachable = true) (selector options : Document) :
    (c.find selector options).1 = ((c.collection.search selector options).map c.cursorOver).mapError .rejected := by
  have hlogged : (c.logged ⟨.find, selector, options⟩).reachable = true := hreachable
  simp only [find, hlogged, if_true]
  show Except.map c.cursorOver (Except.mapError _ (c.collection.search selector options)) = _
  cases c.collection.search selector options <;> rfl

theorem find_of_unreachable {c : Connection} (hreachable : c.reachable = false) (selector options : Document) :
    (c.find selector options).1 = .error .connectionRefused := by
  have hlogged : (c.logged ⟨.find, selector, options⟩).reachable = false := hreachable
  simp only [find, hlogged, Bool.false_eq_true, if_false]

theorem count_of_reachable {c : Connection} (hreachable : c.reachable = true) (selector options : Document) :
    (c.count selector options).1 = (c.collection.tally selector options).mapError .rejected := by
  have hlogged : (c.logged ⟨.count, selector, options⟩).reachable = true := hreachable
  simp only [count, hlogged, if_true]
  rfl

/-- What a connection is going to answer from. -/
def holding (c : Connection) : List Document × Bool × Option Nat := (c.collection.documents, c.reachable, c.breaksAt)

/-- A connection after a request was sent over it. -/
def served (kind : RequestKind) (q : Query) (c : Connection) : Connection :=
  match kind with
  | .find => (c.find q.selector q.options).2
  | .count => (c.count q.selector q.options).2

theorem holding_served (kind : RequestKind) (q : Query) (c : Connection) : (c.served kind q).holding = c.holding := by
  cases kind with
  | find =>
    rw [served, find]
    split <;> rfl
  | count =>
    rw [served, count]
    split <;> rfl

theorem find_of_holding {c d : Connection} (hholding : c.holding = d.holding) (selector options : Document) :
    (c.find selector options).1 = (d.find selector options).1 := by
  obtain ⟨cc, creachable, cbreaks, clog⟩ := c
  obtain ⟨dc, dreachable, dbreaks, dlog⟩ := d
  obtain ⟨hdocuments, rfl, rfl⟩ : cc.documents = dc.documents ∧ creachable = dreachable ∧ cbreaks = dbreaks := by
    simpa [holding] using hholding
  cases creachable with
  | false => rfl
  | true =>
    rw [find_of_reachable rfl, find_of_reachable rfl, Collection.search, hdocuments]
    rfl

theorem count_of_holding {c d : Connection} (hholding : c.holding = d.holding) (selector options : Document) :
    (c.count selector options).1 = (d.count selector options).1 := by
  obtain ⟨cc, creachable, cbreaks, clog⟩ := c
  obtain ⟨dc, dreachable, dbreaks, dlog⟩ := d
  obtain ⟨hdocuments, rfl, rfl⟩ : cc.documents = dc.documents ∧ creachable = dreachable ∧ cbreaks = dbreaks := by
    simpa [holding] using hholding
  cases creachable with
  | false => rfl
  | true =>
    rw [count_of_reachable rfl, count_of_reachable rfl, Collection.tally, hdocuments]
    rfl

end Connection

namespace Database

variable {db db' : Database} {key : String}

theorem find_of_connection {c : Connection} (hconnection : db.connections.get? key = some c)
    (selector options : Document) :
    db.find key selector options = ((c.find selector options).1, db.withConnection key (c.find selector options).2) := by
  rw [find, hconnection]

theorem count_of_connection {c : Connection} (hconnection : db.connections.get? key = some c)
    (selector options : Document) :
    db.count key selector options = ((c.count selector options).1, db.withConnection key (c.count selector options).2) := by
  rw [count, hconnection]

/-! ### Databases that answer alike -/

/-- Two databases hold the same documents behind connections of the same state. -/
def Alike (db db' : Database) : Prop :=
  ∀ key, (db.connections.get? key).map Connection.holding = (db'.connections.get? key).map Connection.holding

theorem Alike.connections (halike : Alike db db') (key : String) :
    (db.connections.get? key = none ∧ db'.connections.get? key = none) ∨
      ∃ c c', db.connections.get? key = some c ∧ db'.connections.get? key = some c' ∧ c.holding = c'.holding := by
  have hholding := halike key
  cases hc : db.connections.get? key with
  | none =>
    rw [hc, Option.map_none, eq_comm, Option.map_eq_none_iff] at hholding
    exact .inl ⟨rfl, hholding⟩
  | some c =>
    rw [hc, Option.map_some, eq_comm, Option.map_eq_some_iff] at hholding
    obtain ⟨c', hc', hheld⟩ := hholding
    exact .inr ⟨c, c', rfl, hc', hheld.symm⟩

theorem Alike.find (halike : Alike db db') (key : String) (selector options : Document) :
    (db.find key selector options).1 = (db'.find key selector options).1 := by
  rw [Database.find, Database.find]
  obtain ⟨hc, hc'⟩ | ⟨c, c', hc, hc', hholding⟩ := halike.connections key
  · rw [hc, hc']
  · rw [hc, hc']
    exact Connection.find_of_holding hholding selector options

theorem Alike.count (halike : Alike db db') (key : String) (selector options : Document) :
    (db.count key selector options).1 = (db'.count key selector options).1 := by
  rw [Database.count, Database.count]
  obtain ⟨hc, hc'⟩ | ⟨c, c', hc, hc', hholding⟩ := halike.connections key
  · rw [hc, hc']
  · rw [hc, hc']
    exact Connection.count_of_holding hholding selector options

theorem alike_withConnection {c served : Connection} (hconnection : db.connections.get? key = some c)
    (hserved : served.holding = c.holding) : Alike db (db.withConnection key served) := by
  intro other
  rw [withConnection, Entries.get?_put]
  by_cases hkey : key = other
  · subst hkey
    rw [if_pos rfl, hconnection, Option.map_some, Option.map_some, hserved]
  · rw [if_neg hkey]

theorem alike_find (db : Database) (key : String) (q : Query) : Alike db (db.find key q.selector q.options).2 := by
  cases hconnection : db.connections.get? key with
  | none =>
    rw [find, hconnection]
    exact fun _ => rfl
  | some c =>
    rw [find_of_connection hconnection]
    exact alike_withConnection hconnection (Connection.holding_served .find q c)

theorem alike_count (db : Database) (key : String) (q : Query) : Alike db (db.count key q.selector q.options).2 := by
  cases hconnection : db.connections.get? key with
  | none =>
    rw [count, hconnection]
    exact fun _ => rfl
  | some c =>
    rw [count_of_connection hconnection]
    exact alike_withConnection hconnection (Connection.holding_served .count q c)

end Database

end DocQuery
