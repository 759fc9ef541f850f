import DocQuery.Collection.History
import DocQuery.Proofs.Collection.Removal
import DocQuery.Proofs.Query.PlainConditions

/-!
# Every document is accounted for

A log of the insertions of a run says all there is to say of the collection at its end. It has the documents in the
order in which they came, each with its identity, and for each the steps that came after it: the document is still
there if none of these took it away. A removal that fails takes nothing, since a selector that fails on one document
matches no other. So the answers of the run add up: what was inserted is there or was counted by a removal.
-/

namespace DocQuery

def Document.isIdentified (d : Document) : Bool := (d.get? identityField).isSome

/-- A document with its identity, which is added at its end if it comes without one. -/
def Document.identified (d : Document) (fresh : StoreValue) : Document :=
  if d.isIdentified then d else d ++ [(identityField, fresh)]

namespace ShelfStep

/-- The documents that a step inserts. -/
def inserted : ShelfStep → List Document
  | insert d => [d]
  | insertMany ds => ds
  | _ => []

/-- Whether a step takes a document away from a shelf that has it. -/
def takes (d : Document) : ShelfStep → Bool
  | remove selector => d.isMatch selector
  | _ => false

/-- The number of documents that a step removed by its own account. -/
def removed : ShelfStep → ShelfAnswer → Nat
  | remove _, .number (.ok n) => n
  | _, _ => 0

end ShelfStep

/-- The identities that a step gives for the documents it inserted. -/
def ShelfAnswer.ids : ShelfAnswer → List StoreValue
  | identity id => [id]
  | identities ids => ids
  | _ => []

namespace Shelf

/-- Documents as a shelf keeps them that has issued a number of its identities before. -/
def keep (identities : Nat → ObjectId) : Nat → List Document → List Document
  | _, [] => []
  | issued, d :: rest =>
    d.identified (.objectId (identities issued)) :: keep identities (if d.isIdentified then issued else issued + 1) rest

def unidentified (ds : List Document) : Nat := ds.countP fun d => !d.isIdentified

/-- The documents that steps insert, each as it is kept and with the steps that come after it. -/
def log (identities : Nat → ObjectId) : Nat → List ShelfStep → List (Document × List ShelfStep)
  | _, [] => []
  | issued, step :: rest =>
    (keep identities issued step.inserted).map (fun d => (d, rest)) ++
      log identities (issued + unidentified step.inserted) rest

/-- The identities that a run gives, in order. -/
def ids (s : Shelf) (steps : List ShelfStep) : List StoreValue := (s.run steps).flatMap (·.1.ids)

/-- The number of documents that a run removed by its own account. -/
def removals : Shelf → List ShelfStep → Nat
  | _, [] => 0
  | s, step :: rest => step.removed (s.step step).1 + removals (s.step step).2 rest

/-! ### Keeping documents -/

theorem issued_cons (issued : Nat) (d : Document) (ds : List Document) :
    (if d.isIdentified then issued else issued + 1) + unidentified ds = issued + unidentified (d :: ds) := by
  cases hd : d.isIdentified <;> simp [unidentified, hd, Nat.add_assoc, Nat.add_comm 1]

theorem keep_append (identities : Nat → ObjectId) (issued : Nat) (ds es : List Document) :
    keep identities issued (ds ++ es) =
      keep identities issued ds ++ keep identities (issued + unidentified ds) es := by
  induction ds generalizing issued with
  | nil => rfl
  | cons d rest ih => rw [List.cons_append, keep, keep, ih, issued_cons, List.cons_append]

theorem length_keep (identities : Nat → ObjectId) (issued : Nat) (ds : List Document) :
    (keep identities issued ds).length = ds.length := by
  induction ds generalizing issued with
  | nil => rfl
  | cons d rest ih => rw [keep, List.length_cons, ih, List.length_cons]

/-! ### Inserting -/

/-- What inserting documents does to a shelf: they are added as they are kept, and their identities given. -/
structure Inserts (s : Shelf) (ds : List Document) (ids : List StoreValue) (s' : Shelf) : Prop where
  documents : s'.collection.documents = s.collection.documents ++ keep s.identities s.issued ds
  identities : s'.identities = s.identities
  issued : s'.issued = s.issued + unidentified ds
  ids : ids.map some = (keep s.identities s.issued ds).map (·.get? identityField)

theorem get?_identified (d : Document) (fresh : StoreValue) :
    (d.identified fresh).get? identityField = some ((d.get? identityField).getD fresh) := by
  rw [Document.identified, Document.isIdentified]
  cases hid : d.get? identityField with
  | some id => exact hid
  | none =>
    rw [if_neg (by simp), Entries.get?_append, hid]
    rfl

theorem insert_eq (s : Shelf) (d : Document) :
    s.insert d = ((d.get? identityField).getD s.fresh,
      ⟨{ s.collection with documents := s.collection.documents ++ [d.identified s.fresh] }, s.identities,
        if d.isIdentified then s.issued else s.issued + 1⟩) := by
  rw [insert, Collection.insert, Document.identified, Document.isIdentified]
  cases hid : d.get? identityField with
  | some id => rfl
  | none =>
    rw [Entries.put_of_not_mem s.fresh (Entries.get?_eq_none_iff.mp hid)]
    rfl

theorem inserts_insertMany (s : Shelf) (ds : List Document) : Inserts s ds (s.insertMany ds).1 (s.insertMany ds).2 := by
  induction ds generalizing s with
  | nil => exact ⟨(List.append_nil _).symm, rfl, rfl, rfl⟩
  | cons d rest ih =>
    have hrest := ih (s.insert d).2
    rw [insertMany]
    constructor
    · rw [hrest.documents, insert_eq, keep, List.append_assoc]
      rfl
    · rw [hrest.identities, insert_eq]
    · rw [hrest.issued, insert_eq]
      exact issued_cons ..
    · rw [List.map_cons, hrest.ids, insert_eq, keep, List.map_cons, get?_identified]
      rfl

theorem inserts_insert (s : Shelf) (d : Document) : Inserts s [d] [(s.insert d).1] (s.insert d).2 :=
  inserts_insertMany s [d]

end Shelf

/-! ### Removing -/

namespace Collection

theorem documents_remove (c : Collection) (selector : Document) :
    (c.remove selector).2.documents = c.documents.filter fun d => !d.isMatch selector :=
  filter_isKept selector c.documents

/-- A removal takes as many documents as it says, and none if it fails. -/
theorem size_remove (c : Collection) (selector : Document) :
    (c.remove selector).2.size + (ShelfStep.remove selector).removed (.number (c.remove selector).1) = c.size := by
  rcases accepts_or_rejects selector c.documents with haccepts | ⟨e, hrejects⟩
  · rw [remove_of_accepts haccepts]
    exact (Nat.add_comm ..).trans (List.length_eq_length_filter_add _).symm
  · rw [remove_of_rejects hrejects]
    rfl

end Collection

namespace Shelf

/-! ### Steps -/

/-- What a step does to a shelf, and what its answer says of that. -/
structure Accounts (s : Shelf) (step : ShelfStep) (answer : ShelfAnswer) (s' : Shelf) : Prop where
  documents : s'.collection.documents =
    s.collection.documents.filter (fun d => !step.takes d) ++ keep s.identities s.issued step.inserted
  identities : s'.identities = s.identities
  issued : s'.issued = s.issued + unidentified step.inserted
  ids : answer.ids.map some = (keep s.identities s.issued step.inserted).map (·.get? identityField)
  size : s'.collection.size + step.removed answer = s.collection.size + step.inserted.length

theorem Inserts.accounts {s s' : Shelf} {step : ShelfStep} {answer : ShelfAnswer}
    (hinserts : Inserts s step.inserted answer.ids s') (hremove : ∀ selector, step ≠ .remove selector) :
    Accounts s step answer s' := by
  have htakes : ∀ d, step.takes d = false := by
    intro d
    cases step with
    | remove selector => exact absurd rfl (hremove selector)
    | _ => rfl
  have hremoved : step.removed answer = 0 := by
    cases step with
    | remove selector => exact absurd rfl (hremove selector)
    | _ => rfl
  refine ⟨?_, hinserts.identities, hinserts.issued, hinserts.ids, ?_⟩
  · simp only [hinserts.documents, htakes, Bool.not_false, List.filter_true]
  · rw [hremoved, Collection.size, hinserts.documents, List.length_append, length_keep]
    rfl

theorem accounts_step (s : Shelf) (step : ShelfStep) : Accounts s step (s.step step).1 (s.step step).2 := by
  have hnothing : ∀ c : Collection, c.documents = s.collection.documents → Inserts s [] [] { s with collection := c } :=
    fun _ hdocuments => ⟨hdocuments.trans (List.append_nil _).symm, rfl, rfl, rfl⟩
  cases step with
  | insert d => exact (inserts_insert s d).accounts nofun
  | insertMany ds => exact (inserts_insertMany s ds).accounts nofun
  | find | count | name => exact Inserts.accounts (hnothing _ rfl) nofun
  | remove selector =>
    refine ⟨?_, rfl, rfl, rfl, Collection.size_remove s.collection selector⟩
    exact (Collection.documents_remove s.collection selector).trans (List.append_nil _).symm

/-! ### Runs -/

/-- After a run there are the documents that were there or were inserted and that no later step took away. -/
theorem documents_after (s : Shelf) (steps : List ShelfStep) :
    (s.after steps).collection.documents = s.collection.documents.filter (fun d => !steps.any (·.takes d)) ++
      ((log s.identities s.issued steps).filter fun e => !e.2.any (·.takes e.1)).map Prod.fst := by
  induction steps generalizing s with
  | nil => simp [after, log]
  | cons step rest ih =>
    have hstep := accounts_step s step
    have hnew : (((keep s.identities s.issued step.inserted).map fun d => (d, rest)).filter fun e => !e.2.any (·.takes e.1)).map
        Prod.fst = (keep s.identities s.issued step.inserted).filter fun d => !rest.any (·.takes d) := by
      rw [List.filter_map, List.map_map]
      exact List.map_id _
    have hold : (s.collection.documents.filter fun d => !step.takes d).filter (fun d => !rest.any (·.takes d)) =
        s.collection.documents.filter fun d => !(step :: rest).any (·.takes d) := by
      simp only [List.filter_filter, List.any_cons, Bool.not_or, Bool.and_comm]
    rw [after, ih, hstep.documents, hstep.identities, hstep.issued, List.filter_append, hold, log, List.filter_append, List.map_append,
      hnew, List.append_assoc]

theorem map_fst_log (identities : Nat → ObjectId) (issued : Nat) (steps : List ShelfStep) :
    (log identities issued steps).map Prod.fst = keep identities issued (steps.flatMap (·.inserted)) := by
  induction steps generalizing issued with
  | nil => rfl
  | cons step rest ih =>
    rw [log, List.map_append, List.map_map, ih, List.flatMap_cons, keep_append]
    exact congrArg (· ++ _) (List.map_id _)

/-- The answers of a run give the identities of the documents that it inserts, in order. -/
theorem map_some_ids (s : Shelf) (steps : List ShelfStep) :
    (s.ids steps).map some = (keep s.identities s.issued (steps.flatMap (·.inserted))).map (·.get? identityField) := by
  induction steps generalizing s with
  | nil => rfl
  | cons step rest ih =>
    have hstep := accounts_step s step
    have hids : s.ids (step :: rest) = (s.step step).1.ids ++ (s.step step).2.ids rest := List.flatMap_cons
    rw [hids, List.map_append, ih, hstep.ids, hstep.identities, hstep.issued, List.flatMap_cons, keep_append, List.map_append]

theorem size_after (s : Shelf) (steps : List ShelfStep) :
    (s.after steps).collection.size + s.removals steps = s.collection.size + (steps.flatMap (·.inserted)).length := by
  induction steps generalizing s with
  | nil => rfl
  | cons step rest ih =>
    have hstep := (accounts_step s step).size
    have hrest := ih (s.step step).2
    rw [after, removals, List.flatMap_cons, List.length_append]
    omega

/-! ### Finding by identity -/

theorem satisfies_identity {id : StoreValue} (hplain : id.isOperators = false) (d : Document) :
    d.satisfies [(identityField, id)] = .ok (Selector.holds (d.get? identityField) id) := by
  have hpath : '.' ∉ identityField.toList := by decide +kernel
  rw [Document.satisfies, Selector.allOk_singleton, d.lookUp?_of_plain hpath, Query.meets_eq_holds hplain]

/-- A document that has just been inserted is found by the identity that inserting it gave. -/
theorem find_insert (s : Shelf) (d : Document) (hnumbers : (s.insert d).1.holdsNaN = false)
    (hplain : (s.insert d).1.isOperators = false) :
    ∃ found, ((s.insert d).2.collection.find [(identityField, (s.insert d).1)] []).1 = .ok found ∧
      d.identified s.fresh ∈ found := by
  rw [insert_eq] at hnumbers hplain ⊢
  refine ⟨_, Collection.find_of_accepts fun e _ => ⟨_, satisfies_identity hplain e⟩, List.mem_filter.mpr ⟨?_, ?_⟩⟩
  · exact List.mem_append_right _ List.mem_cons_self
  · rw [Document.isMatch, satisfies_identity hplain, get?_identified, Selector.holds_self hnumbers]

/-! ### A whole run -/

theorem documents_run (name : String) (identities : Nat → ObjectId) (steps : List ShelfStep) :
    ((empty name identities).after steps).collection.documents =
      ((log identities 0 steps).filter fun e => !e.2.any (·.takes e.1)).map Prod.fst :=
  documents_after (empty name identities) steps

theorem exists_id_of_mem (name : String) (identities : Nat → ObjectId) (steps : List ShelfStep) {d : Document}
    (hd : d ∈ ((empty name identities).after steps).collection.documents) :
    ∃ id ∈ (empty name identities).ids steps, d.get? identityField = some id := by
  rw [documents_run] at hd
  obtain ⟨e, he, rfl⟩ := List.mem_map.mp hd
  have hkept : e.1 ∈ keep identities 0 (steps.flatMap (·.inserted)) := by
    rw [← map_fst_log]
    exact List.mem_map_of_mem (List.mem_of_mem_filter he)
  have hid : e.1.get? identityField ∈ ((empty name identities).ids steps).map some := by
    rw [map_some_ids]
    exact List.mem_map_of_mem hkept
  obtain ⟨id, hmem, hsome⟩ := List.mem_map.mp hid
  exact ⟨id, hmem, hsome.symm⟩

/-- After every run of steps on an empty collection, whatever its supply of identities, the collection has the documents
that were inserted and that no later step took away, in order and as they came but for an identity at the end of those
that had none. Each has the identity that its insertion gave, and the numbers of documents inserted, removed and left add
up. Finding and counting leave the documents as they are, and a document that has just been inserted is found by its
identity, unless this does not equal itself or is taken for operators. -/
theorem run_accounted :
    (∀ (name : String) (identities : Nat → ObjectId) (steps : List ShelfStep),
      ((empty name identities).after steps).collection.documents =
        ((log identities 0 steps).filter fun e => !e.2.any (·.takes e.1)).map Prod.fst ∧
      (log identities 0 steps).map Prod.fst = keep identities 0 (steps.flatMap (·.inserted)) ∧
      ((empty name identities).ids steps).map some =
        (keep identities 0 (steps.flatMap (·.inserted))).map (·.get? identityField) ∧
      (∀ d ∈ ((empty name identities).after steps).collection.documents,
        ∃ id ∈ (empty name identities).ids steps, d.get? identityField = some id) ∧
      ((empty name identities).after steps).collection.size + (empty name identities).removals steps =
        (steps.flatMap (·.inserted)).length) ∧
    ∀ s : Shelf,
      (∀ selector options : Document,
        (s.step (.find selector options)).2.collection.documents = s.collection.documents ∧
        (s.step (.count selector options)).2.collection.documents = s.collection.documents) ∧
      ∀ d : Document, (s.insert d).1.holdsNaN = false → (s.insert d).1.isOperators = false →
        ∃ found, ((s.insert d).2.collection.find [(identityField, (s.insert d).1)] []).1 = .ok found ∧
          d.identified s.fresh ∈ found := by
  refine ⟨fun name identities steps => ⟨documents_run name identities steps, map_fst_log identities 0 steps,
    map_some_ids (empty name identities) steps, ?_, ?_⟩, fun s => ⟨fun _ _ => ⟨rfl, rfl⟩, find_insert s⟩⟩
  · exact fun d hd => exists_id_of_mem name identities steps hd
  · exact (size_after (empty name identities) steps).trans (Nat.zero_add _)

/-! ### Visits that are struck off -/

/-- The second removal fails. -/
def visits : List ShelfStep :=
  [.insert [("who", .string "Ada")],
    .insertMany [[("who", .string "Bob")], [("_id", .array [.null]), ("who", .string "Eve")]],
    .remove [("who", .string "Ada")], .remove [("who", .document [("$near", .null)])]]

theorem visits_accounted :
    ((empty "visits").after visits).collection.documents =
      [[("who", .string "Bob"), ("_id", .objectId (.issued 1))], [("_id", .array [.null]), ("who", .string "Eve")]] ∧
    (empty "visits").removals visits = 1 ∧
    ∃ found, (((empty "visits").insert [("_id", .array [.null])]).2.collection.find [("_id", .array [.null])] []).1 =
      .ok found ∧ [("_id", .array [.null])] ∈ found := by
  obtain ⟨hdocuments, -, -, -, hsize⟩ := run_accounted.1 "visits" .issued visits
  have hleft : ((empty "visits").after visits).collection.documents =
      [[("who", .string "Bob"), ("_id", .objectId (.issued 1))], [("_id", .array [.null]), ("who", .string "Eve")]] :=
    hdocuments.trans rfl
  rw [Collection.size, hleft] at hsize
  refine ⟨hleft, Nat.add_left_cancel hsize, ?_⟩
  exact (run_accounted.2 (empty "visits")).2 [("_id", .array [.null])] rfl rfl

end Shelf

end DocQuery
