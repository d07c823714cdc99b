/-
Edits do not look back. What an edit does depends on the working state, the next identifier and the limit on labels; the
number of the transaction, the mutations so far and the savepoints are only carried along.

- `within`: what one transaction has come to, as a continuation of another one.
- `Oblivious`: an edit that does the same within any transaction. So is every edit made of the usual steps, and with it
  every operation but those on savepoints (`Operation.oblivious`).
- `Alike`: two transactions that differ at most in their numbers and savepoints. They get the same answer to any such
  edit, and are still alike (`Alike.outcome`).
- `perform_id`: no operation changes the number of its transaction.
-/
import ConceptGraph.Proofs.Transaction.Performing

namespace ConceptGraph

namespace Transaction

variable {α β : Type} {t t' u : Transaction}

/-- `t` as a continuation of `c`: its mutations come after those of `c`, whose number and savepoints stay -/
def within (t c : Transaction) : Transaction :=
  { t with id := c.id, mutations := c.mutations ++ t.mutations, savepoints := c.savepoints }

/-- the edit does within any transaction what it does on its own -/
def Oblivious (e : Edit α) : Prop := ∀ t c, outcome e (t.within c) = ((outcome e t).1, (outcome e t).2.within c)

/-! ## Steps -/

namespace Oblivious

theorem pure (a : α) : Oblivious (pure a) := fun _ _ => rfl

theorem throw (err : ConceptError) : Oblivious (throw err : Edit α) := fun _ _ => rfl

theorem record (m : Mutation) : Oblivious (record m) := by
  intro t c
  simp [outcome_record, within]

theorem editSchema (f : Schema → Except ConceptError Schema) : Oblivious (editSchema f) := by
  intro t c
  simp only [outcome_editSchema, within]
  cases f t.working.schema <;> rfl

theorem editGraph (f : Graph → Except ConceptError (α × Graph)) : Oblivious (editGraph f) := by
  intro t c
  simp only [outcome_editGraph, within]
  cases f t.working.graph <;> rfl

theorem bind {e : Edit β} {k : β → Edit α} (he : Oblivious e) (hk : ∀ b, Oblivious (k b)) : Oblivious (e >>= k) := by
  intro t c
  rw [outcome_bind, he, outcome_bind]
  cases h : outcome e t with
  | mk r t' =>
    cases r with
    | error err => rfl
    | ok b => exact hk b t' c

theorem ask {f : State → Except ConceptError β} {k : β → Edit α} (hk : ∀ b, Oblivious (k b)) : Oblivious (ask f >>= k) :=
  bind (fun t c => by rw [outcome_ask, outcome_ask]; rfl) hk

theorem look {f : State → β} {k : β → Edit α} (hk : ∀ b, Oblivious (k b)) : Oblivious (look f >>= k) :=
  bind (fun _ _ => rfl) hk

/-- an edit may look at the transaction as a whole if nothing that is carried along matters to it -/
theorem get {k : Transaction → Edit α} (hsame : ∀ t c, k (t.within c) = k t) (hk : ∀ t, Oblivious (k t)) :
    Oblivious (get >>= k) := by
  intro t c
  show outcome (k (t.within c)) (t.within c) = _
  rw [hsame]
  exact hk t t c

theorem newType {k : TypeId → Edit α} (hk : ∀ x, Oblivious (k x)) : Oblivious (newType >>= k) :=
  bind (fun _ _ => rfl) hk

theorem newThing {k : ThingId → Edit α} (hk : ∀ x, Oblivious (k x)) : Oblivious (newThing >>= k) :=
  bind (fun _ _ => rfl) hk

theorem map {f : α → β} {e : Edit α} (he : Oblivious e) : Oblivious (f <$> e) := by
  rw [map_eq_pure_bind]
  exact he.bind fun a => .pure _

/-- an edit of the schema, and its mutation -/
theorem recorded {f : Schema → Except ConceptError Schema} {m : Mutation} :
    Oblivious (Transaction.editSchema f >>= fun _ => Transaction.record m) :=
  (editSchema f).bind fun _ => .record m

/-- what is done only where something is not yet as wanted -/
theorem when {c : Prop} [Decidable c] {e : Edit Unit} (he : Oblivious e) :
    Oblivious (if c then e else Pure.pure ()) := by
  split
  · exact he
  · exact .pure ()

/-- what is carried along is kept, and mutations are only added -/
theorem carries {e : Edit α} (he : Oblivious e) (t : Transaction) : (outcome e t).2.id = t.id ∧
    (outcome e t).2.savepoints = t.savepoints ∧ ∃ ms, (outcome e t).2.mutations = t.mutations ++ ms := by
  have hout := he { t with mutations := [] } t
  rw [show ({ t with mutations := [] } : Transaction).within t = t by simp [within]] at hout
  rw [hout]
  exact ⟨rfl, rfl, _, rfl⟩

end Oblivious

/-! ## Transactions alike -/

/-- the transactions differ at most in their numbers and savepoints -/
structure Alike (t u : Transaction) : Prop where
  labelLimit : u.labelLimit = t.labelLimit
  ids : u.ids = t.ids
  working : u.working = t.working
  mutations : u.mutations = t.mutations

theorem Alike.refl (t : Transaction) : t.Alike t := ⟨rfl, rfl, rfl, rfl⟩

theorem Alike.trans {t'' : Transaction} (h : t.Alike t') (h' : t'.Alike t'') : t.Alike t'' :=
  ⟨h'.labelLimit.trans h.labelLimit, h'.ids.trans h.ids, h'.working.trans h.working, h'.mutations.trans h.mutations⟩

/-- what can be done in one of them can be done in the other one -/
theorem Alike.outcome {e : Edit α} {a : α} (h : t.Alike u) (he : Oblivious e) (hout : outcome e t = (.ok a, t')) :
    ∃ u', outcome e u = (.ok a, u') ∧ t'.Alike u' := by
  -- both continue one transaction that has no mutations yet
  let alone : Transaction := { t with mutations := [] }
  have ht : alone.within t = t := by simp [alone, within]
  have hu : alone.within u = u := by simp [alone, within, ← h.labelLimit, ← h.ids, ← h.working]
  have houtt := he alone t
  have houtu := he alone u
  rw [ht, hout] at houtt
  rw [hu] at houtu
  obtain ⟨hr, rfl⟩ := Prod.mk.inj houtt
  rw [← hr] at houtu
  exact ⟨_, houtu, rfl, rfl, rfl, congrArg (· ++ _) h.mutations⟩

/-! ## Operations -/

theorem oblivious_existing (label : String) (kind : Kind) {k : Option TypeId → Edit α} (hk : ∀ x, Oblivious (k x)) :
    Oblivious (existing label kind >>= k) := .ask hk

theorem oblivious_putType (label : String) (body : TypeBody) : Oblivious (putType label body) := by
  refine oblivious_existing _ _ fun x => ?_
  cases x with
  | some a => exact .pure a
  | none =>
    refine .look fun p => .get (fun _ _ => rfl) fun _ => .ask fun _ => .newType fun a =>
      (Oblivious.editSchema _).bind fun _ => (Oblivious.record _).bind fun _ => ?_
    split
    · exact (Oblivious.record _).bind fun _ => .pure a
    · exact .pure a

theorem oblivious_setDataType (a : TypeId) (dataType : DataType) : Oblivious (setDataType a dataType) :=
  .ask fun _ => .ask fun _ => .when .recorded

theorem oblivious_putAttributeType (label : String) (dataType : Option DataType) :
    Oblivious (putAttributeType label dataType) := by
  refine oblivious_existing _ _ fun x => ?_
  cases x with
  | none => exact oblivious_putType _ _
  | some a =>
    cases dataType with
    | none => exact .pure a
    | some v =>
      refine .look fun current => ?_
      split
      · exact (oblivious_setDataType a v).bind fun _ => .pure a
      · exact .pure a

theorem oblivious_ensureImplicit (a : TypeId) : Oblivious (ensureImplicit a) := by
  refine .look fun x => ?_
  cases x with
  | some r => exact .pure r
  | none =>
    exact .ask fun _ => .newType fun _ => .newType fun _ => .newType fun _ => (Oblivious.editSchema _).bind fun _ => .pure _

theorem oblivious_declareOwnership (a owned : TypeId) (ownership : Ownership) (m : Mutation) :
    Oblivious (declareOwnership a owned ownership >>= fun _ => record m) :=
  .bind ((oblivious_ensureImplicit owned).bind fun _ => .editSchema _) fun _ => .record m

theorem oblivious_create (a : TypeId) (kind : Kind) (body : ThingBody) : Oblivious (create a kind body) :=
  .ask fun _ => .newThing fun id => (Oblivious.editGraph _).bind fun _ => (Oblivious.record _).bind fun _ => .pure id

theorem oblivious_putAttribute (a : TypeId) (value : Value) : Oblivious (putAttribute a value) := by
  refine .ask fun _ => .look fun x => ?_
  cases x with
  | some id => exact .pure id
  | none =>
    exact .newThing fun id => (Oblivious.editGraph _).bind fun _ => (Oblivious.record _).bind fun _ => .pure id

theorem oblivious_addRolePlayer (r : ThingId) (role : TypeId) (p : ThingId) : Oblivious (addRolePlayer r role p) :=
  .ask fun _ => (Oblivious.editGraph _).bind fun _ => .when (.record _)

theorem oblivious_removeRolePlayer (r : ThingId) (role : TypeId) (p : ThingId) :
    Oblivious (removeRolePlayer r role p) := by
  refine .ask fun _ => (Oblivious.editGraph _).bind fun removed => ?_
  split
  · exact (Oblivious.record _).bind fun _ => .pure removed
  · exact .pure removed

theorem oblivious_setHas (o a : ThingId) : Oblivious (setHas o a) := by
  refine .ask fun decl => .look fun x => ?_
  cases x with
  | some r => exact .pure r
  | none =>
    refine .look fun x => ?_
    cases x with
    | none => exact .throw _
    | some q =>
      exact .newThing fun r => (Oblivious.editGraph _).bind fun _ => (Oblivious.editGraph _).bind fun _ =>
        (Oblivious.editGraph _).bind fun _ => (Oblivious.record _).bind fun _ => .pure r

theorem oblivious_removeThing (id : ThingId) : Oblivious (removeThing id) :=
  (Oblivious.editGraph _).bind fun _ => .pure ()

theorem oblivious_unsetHas (o a : ThingId) : Oblivious (unsetHas o a) := by
  refine .ask fun _ => .ask fun _ => .look fun x => ?_
  cases x with
  | none => exact .pure false
  | some r => exact (oblivious_removeThing r).bind fun _ => (Oblivious.record _).bind fun _ => .pure true

theorem oblivious_removeAll (edges : List OwnershipEdge) : Oblivious (edges.forM fun e => removeThing e.relation) := by
  induction edges with
  | nil => exact .pure ()
  | cons e edges ih => exact (oblivious_removeThing e.relation).bind fun _ => ih

theorem oblivious_deleteThing (id : ThingId) : Oblivious (deleteThing id) :=
  .ask fun _ => .look fun edges => (oblivious_removeAll edges).bind fun _ => (oblivious_removeThing id).bind fun _ =>
    .record _

end Transaction

open Transaction

/-- **Operations** on types and instances do within a transaction what they do on their own. -/
theorem Operation.oblivious {op : Operation} (hop : op.editsSchema ∨ op.editsGraph) : Oblivious op.perform := by
  cases op with
  | putEntityType | putRelationType | putRole => exact (oblivious_putType _ _).map
  | putAttributeType label dataType => exact (oblivious_putAttributeType label dataType).map
  | setDataType a dataType => exact (oblivious_setDataType a dataType).map
  | setSupertype a p => exact .map (.ask fun _ => .look fun _ => .when .recorded)
  | setLabel a label => exact .map (.get (fun _ _ => rfl) fun _ => .ask fun _ => .ask fun _ => .when .recorded)
  | deleteType a => exact .map (.ask fun _ => .recorded)
  | setRegex a source => exact .map (.ask fun _ => .recorded)
  | setAbstract | unsetRegex | plays | unplay | relates | unrelate | unkey =>
    exact .map (.ask fun _ => .ask fun _ => .when .recorded)
  | unhas a owned => exact .map (.ask fun _ => .look fun _ => .ask fun _ => .when .recorded)
  | has | key => exact .map (.ask fun _ => .ask fun _ => .when (oblivious_declareOwnership _ _ _ _))
  | createEntity | createRelation => exact (oblivious_create _ _ _).map
  | putAttribute a value => exact (oblivious_putAttribute a value).map
  | addRolePlayer r role p => exact (oblivious_addRolePlayer r role p).map
  | removeRolePlayer r role p => exact (oblivious_removeRolePlayer r role p).map
  | setHas o a => exact (oblivious_setHas o a).map
  | unsetHas o a => exact (oblivious_unsetHas o a).map
  | deleteThing id => exact (oblivious_deleteThing id).map
  | savepoint | rollbackTo | releaseSavepoint =>
    rcases hop with hop | hop <;> cases hop

namespace Transaction

/-- no operation changes the number of its transaction -/
theorem perform_id (t : Transaction) (op : Operation) : (t.perform op).2.id = t.id := by
  cases op with
  | savepoint name => rfl
  | rollbackTo name =>
    show (outcome ((fun _ => Reply.done) <$> rollbackTo name) t).2.id = t.id
    rw [outcome_map, outcome_rollbackTo]
    cases t.savepoints[name]? <;> rfl
  | releaseSavepoint name =>
    show (outcome ((fun _ => Reply.done) <$> releaseSavepoint name) t).2.id = t.id
    rw [outcome_map, outcome_releaseSavepoint]
    split <;> rfl
  | createEntity | createRelation | putAttribute | addRolePlayer | removeRolePlayer | setHas | unsetHas | deleteThing =>
    rw [perform_eq]
    exact ((Operation.oblivious (Or.inr rfl)).carries t).1
  | _ =>
    rw [perform_eq]
    exact ((Operation.oblivious (Or.inl rfl)).carries t).1

end Transaction

end ConceptGraph
