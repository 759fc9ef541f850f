import DocQuery.Scope.Description
import DocQuery.Session.Step

/-!
# Sessions

A session works in a world with named models and named scopes, one step after the other. A step makes a
scope, derives one from another, gets an answer from a scope, or works on the store. Deriving never touches
the world. Every step reports its answer, whether the scope it is about is loaded afterwards, and the world
that it leaves.
-/

namespace DocQuery

variable {M : ModelKind} {B : Backend}

/-- A world with the models and scopes that are in use, under their names. -/
structure Session (M : ModelKind) (B : Backend) where
  world : World M B
  models : Entries String (Schema M)
  scopes : Entries String (Scope M)

namespace Session

/-- A session in a world with the given models and no scopes. -/
def begun (w : World M B) (models : Entries String (Schema M)) : Session M B := ⟨w, models, []⟩

/-- Names a scope; a scope that had the name is dropped. -/
def withScope (s : Session M B) (name : String) (scope : Scope M) : Session M B :=
  { s with scopes := s.scopes.put name scope }

def scope? (s : Session M B) (name : String) : Option (Scope M) := s.scopes.get? name

/-! ### Deriving -/

/-- The scope derived from another, or the name that is missing for it. -/
def derived (s : Session M B) (scope : Scope M) : Derivation → Except String (Scope M)
  | .having cs => .ok (scope.having cs)
  | .orderBy terms => .ok (scope.orderBy terms)
  | .selecting fields => .ok (scope.selecting fields)
  | .limitedTo n => .ok (scope.limitedTo n)
  | .skipping n => .ok (scope.skipping n)
  | .readingFrom key =>
    match B.name? s.world.store key with
    | some name => .ok (scope.readingFrom ⟨key, name⟩)
    | none => .error key
  | .merge other =>
    match s.scope? other with
    | some t => .ok (scope.merge t)
    | none => .error other
  | .without clause => .ok (scope.without clause)
  | .copy => .ok scope.unloaded
  | .findAllBy field v => .ok (scope.findAllBy field v)

/-! ### Asking -/

/-- Asks for something that loading a scope gives. -/
def askLoaded {α : Type} (s : Session M B) (name : String) (scope : Scope M)
    (answer : Except (QueryError M B) α → Answer M B) (f : List M.Record → α) : Answer M B × Session M B :=
  let (rs, scope, w) := scope.load s.world
  (answer (rs.map f), { s with world := w, scopes := s.scopes.put name scope })

/-- Asks for something that leaves the scope as it is. -/
def askWorld {α : Type} (s : Session M B) (answer : Except (QueryError M B) α → Answer M B)
    (f : World M B → Except (QueryError M B) α × World M B) : Answer M B × Session M B :=
  let (r, w) := f s.world
  (answer r, { s with world := w })

/-- Equality of lists of records. -/
def sameRecordLists : List M.Record → List M.Record → Bool
  | [], [] => true
  | r :: rs, t :: ts => M.same r t && sameRecordLists rs ts
  | _, _ => false

def ask (s : Session M B) (name : String) (scope : Scope M) : Question M → Answer M B × Session M B
  | .criteria => (.criteria scope.criteria, s)
  | .compile => (.query scope.compile, s)
  | .records => s.askLoaded name scope .records id
  | .count => s.askWorld .number scope.count
  | .size => s.askWorld .number scope.size
  | .isEmpty => s.askWorld .truth scope.isEmpty
  | .isNonempty => s.askWorld .truth scope.isNonempty
  | .hasDocument => s.askWorld .truth scope.hasDocument
  | .hasPassing test => s.askLoaded name scope .truth (·.any test)
  | .first => s.askWorld .record scope.first
  | .last => s.askLoaded name scope .record List.getLast?
  | .item n => s.askLoaded name scope .record (·[n]?)
  | .find id => s.askWorld .record (scope.find id)
  | .findBy field v => s.askWorld .record (scope.findBy field v)
  | .sameScope other =>
    match s.scope? other with
    | some t => (.truth (.ok (scope.same t)), s)
    | none => (.unknown other, s)
  | .sameRecords rs =>
    s.askLoaded name scope (fun b => .truth (.ok (b.toOption.getD false))) (sameRecordLists · rs)
  | .source => (.text scope.currentSource.name, s)
  | .model => (.text scope.model.name, s)
  | .description => (.text scope.describe, s)

/-! ### Steps -/

def onScope (s : Session M B) (name : String) (f : Scope M → Answer M B × Session M B) : Answer M B × Session M B :=
  match s.scope? name with
  | some scope => f scope
  | none => (.unknown name, s)

def perform (s : Session M B) : Step M B → Answer M B × Session M B
  | .start model scope =>
    match s.models.get? model with
    | some m => (.done, s.withScope scope (Scope.all m))
    | none => (.unknown model, s)
  | .work change =>
    let (answer, store) := change s.world.store
    (answer, { s with world := { s.world with store := store } })
  | .derive name d new =>
    s.onScope name fun scope =>
      match s.derived scope d with
      | .ok t => (.criteria t.criteria, s.withScope new t)
      | .error missing => (.unknown missing, s)
  | .reset name => s.onScope name fun scope => (.done, s.withScope name scope.unloaded)
  | .reload name =>
    s.onScope name fun scope =>
      s.askLoaded name scope.unloaded .reloaded fun _ => ()
  | .intoRecords name =>
    s.onScope name fun scope =>
      let (rs, w) := scope.intoRecords s.world
      (.records rs, { s with world := w, scopes := s.scopes.erase name })
  | .ask name q => s.onScope name fun scope => s.ask name scope q

/-- Does a step and reports on it. -/
def step (s : Session M B) (step : Step M B) : Report M B × Session M B :=
  let (answer, s) := s.perform step
  (⟨answer, (step.scope?.bind s.scope?).map Scope.isLoaded, s.world⟩, s)

/-- Does steps in order, and gives their reports. -/
def run : Session M B → List (Step M B) → List (Report M B)
  | _, [] => []
  | s, step :: rest => (s.step step).1 :: (s.step step).2.run rest

/-- The session that a list of steps leaves. -/
def after : Session M B → List (Step M B) → Session M B
  | s, [] => s
  | s, step :: rest => (s.step step).2.after rest

end Session

end DocQuery
