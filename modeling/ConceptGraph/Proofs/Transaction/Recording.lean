/-
What operations record. A mutation names the operation that makes the step again, and what that operation answers.

- `Mutation.operation`, `Mutation.answer`: the operation and the answer that a mutation names. Instances of entity and
  relation types are recorded alike, so it takes a schema to tell how one is made.
- `Logged`: an operation that is done has changed nothing, or has recorded one mutation, which names it.
- `Operation.logged`: so it is with every operation on types and instances, but for attribute types that are put with a
  data type; those record that data type on its own.
-/
import ConceptGraph.Proofs.Transaction.Performing

namespace ConceptGraph

namespace Mutation

/-- the operation that the mutation names -/
def operation (schema : Schema) : Mutation → Operation
  | defineType _ label .entity _ => .putEntityType label
  | defineType _ label .relation _ => .putRelationType label
  | defineType _ label .attribute _ => .putAttributeType label none
  | defineType _ label .role _ => .putRole label
  | deleteType id => .deleteType id
  | setSupertype id supertype => .setSupertype id supertype
  | setLabel id label => .setLabel id label
  | setAbstract id isAbstract => .setAbstract id isAbstract
  | setDataType id dataType => .setDataType id dataType
  | setRegex id pattern => .setRegex id pattern
  | unsetRegex id => .unsetRegex id
  | plays id role => .plays id role
  | unplay id role => .unplay id role
  | relates id role => .relates id role
  | unrelate id role => .unrelate id role
  | has id owned => .has id owned
  | unhas id owned => .unhas id owned
  | key id owned => .key id owned
  | unkey id owned => .unkey id owned
  | createThing _ type =>
    if (schema.get? type).map TypeDef.kind = some .relation then .createRelation type else .createEntity type
  | putAttribute _ type value => .putAttribute type value
  | addRolePlayer relation role player => .addRolePlayer relation role player
  | removeRolePlayer relation role player => .removeRolePlayer relation role player
  | setHas owner held _ => .setHas owner held
  | unsetHas owner held => .unsetHas owner held
  | deleteThing id => .deleteThing id

/-- what the operation answers where it makes this step; identifiers are the recorded ones -/
def answer : Mutation → Reply
  | defineType id .. => .type id
  | createThing id _ | putAttribute id _ _ => .thing id
  | setHas _ _ relation => .thing relation
  | removeRolePlayer .. | unsetHas .. => .flag true
  | _ => .done

theorem operation_edits (m : Mutation) (schema : Schema) :
    (m.operation schema).editsSchema ∨ (m.operation schema).editsGraph := by
  cases m with
  | defineType _ _ kind _ =>
    left
    cases kind <;> rfl
  | createThing _ t =>
    right
    rw [operation]
    split <;> rfl
  | putAttribute | addRolePlayer | removeRolePlayer | setHas | unsetHas | deleteThing => exact Or.inr rfl
  | _ => exact Or.inl rfl

end Mutation

namespace Transaction

/-- nothing is changed, or one mutation is recorded, which names the operation and what it has answered -/
def Logged (op : Operation) (t : Transaction) (r : Reply) (t' : Transaction) : Prop :=
  t' = t ∨ ∃ m, t'.mutations = t.mutations ++ [m] ∧ m.operation t.working.schema = op ∧ m.answer = r

variable {t : Transaction} {op : Operation} {r : Reply} {m : Mutation}

/-! ## Types -/

theorem logged_change {f : Schema → Except ConceptError Schema} (hop : m.operation t.working.schema = op)
    (hr : m.answer = r) : Ensures (editSchema f >>= fun _ => record m) t fun _ t' => Logged op t r t' :=
  .editSchema fun _ _ => .record_last (Or.inr ⟨m, rfl, hop, hr⟩)

/-- what is recorded only where something is not yet as wanted -/
theorem logged_when {c : Prop} [Decidable c] {e : Edit Unit} (he : Ensures e t fun _ t' => Logged op t r t') :
    Ensures (if c then e else pure ()) t fun _ t' => Logged op t r t' := by
  split
  · exact he
  · exact .pure (Or.inl rfl)

theorem logged_putType (label : String) {body : TypeBody} (hbody : (TypeDef.blank label body).dataType? = none)
    (hop : ∀ x p, (Mutation.defineType x label body.kind p).operation t.working.schema = op) :
    Ensures (putType label body) t fun x t' => Logged op t (.type x) t' := by
  refine .ask fun found _ => ?_
  cases found with
  | some x => exact .pure (Or.inl rfl)
  | none =>
    refine .look (.get (.ask fun _ _ => .newType (.editSchema fun _ _ => .record ?_)))
    simp only [hbody]
    exact .pure (Or.inr ⟨_, rfl, hop _ _, rfl⟩)

theorem logged_setDataType (a : TypeId) (dataType : DataType) : Ensures (setDataType a dataType) t fun _ t' =>
    Logged (.setDataType a dataType) t .done t' :=
  .ask fun _ _ => .ask fun _ _ => logged_when (logged_change rfl rfl)

theorem ensureImplicit_unrecorded (owned : TypeId) :
    Ensures (ensureImplicit owned) t fun _ t' => t'.mutations = t.mutations := by
  refine .look ?_
  cases t.working.schema.implicitForOwned? owned with
  | some r => exact .pure rfl
  | none => exact .ask fun _ _ => .newType (.newType (.newType (.editSchema fun _ _ => .pure rfl)))

/-- the types that record an ownership are not recorded -/
theorem logged_declareOwnership (a owned : TypeId) (ownership : Ownership) (hop : m.operation t.working.schema = op)
    (hr : m.answer = r) :
    Ensures (declareOwnership a owned ownership >>= fun _ => record m) t fun _ t' => Logged op t r t' := by
  rw [declareOwnership, bind_assoc]
  refine .bind ((ensureImplicit_unrecorded owned).weaken fun q t' hsame => .editSchema fun schema _ => .record_last ?_)
  exact Or.inr ⟨m, congrArg (· ++ [m]) hsame, hop, hr⟩

/-! ## Instances -/

/-- a new instance is recorded with its type, which tells how it was made -/
theorem logged_create {a : TypeId} {kind : Kind} (body : ThingBody)
    (hop : ∀ id, (t.working.schema.get? a).map TypeDef.kind = some kind →
      (Mutation.createThing id a).operation t.working.schema = op) :
    Ensures (create a kind body) t fun id t' => Logged op t (.thing id) t' := by
  refine .ask fun _ hc => .newThing (.editGraph fun _ _ _ => .record (.pure (Or.inr ⟨_, rfl, hop _ ?_, rfl⟩)))
  simp only [State.checkCreate, bind_eq_ok, Schema.requireKind_eq_ok] at hc
  obtain ⟨d, ⟨hd, hk⟩, -⟩ := hc
  rw [hd, Option.map_some, hk]

theorem logged_putAttribute (a : TypeId) (value : Value) :
    Ensures (putAttribute a value) t fun id t' => Logged (.putAttribute a value) t (.thing id) t' := by
  refine .ask fun _ _ => .look ?_
  cases t.working.graph.findAttribute? a value with
  | some id => exact .pure (Or.inl rfl)
  | none => exact .newThing (.editGraph fun _ _ _ => .record (.pure (Or.inr ⟨_, rfl, rfl, rfl⟩)))

theorem logged_addRolePlayer (relation : ThingId) (role : TypeId) (player : ThingId) :
    Ensures (addRolePlayer relation role player) t fun _ t' =>
      Logged (.addRolePlayer relation role player) t .done t' := by
  refine .ask fun _ _ => .editGraph fun added graph hadd => ?_
  obtain ⟨-, ps, -, ⟨-, rfl, rfl⟩ | ⟨-, rfl, -⟩⟩ := Graph.addRolePlayer_ok hadd
  · exact .pure (Or.inl rfl)
  · exact .record_last (Or.inr ⟨_, rfl, rfl, rfl⟩)

theorem logged_removeRolePlayer (relation : ThingId) (role : TypeId) (player : ThingId) :
    Ensures (removeRolePlayer relation role player) t fun removed t' =>
      Logged (.removeRolePlayer relation role player) t (.flag removed) t' := by
  refine .ask fun _ _ => .editGraph fun removed graph hrm => ?_
  replace hrm := Graph.removeRolePlayer_ok hrm
  cases removed with
  | true => exact .record (.pure (Or.inr ⟨_, rfl, rfl, rfl⟩))
  | false =>
    have hsame := Graph.detach_of_false (congrArg Prod.fst hrm)
    rw [hrm] at hsame
    subst hsame
    exact .pure (Or.inl rfl)

theorem logged_setHas (owner held : ThingId) :
    Ensures (setHas owner held) t fun id t' => Logged (.setHas owner held) t (.thing id) t' := by
  refine .ask fun decl _ => .look ?_
  cases t.working.ownershipBetween? owner held with
  | some id => exact .pure (Or.inl rfl)
  | none =>
    refine .look ?_
    cases t.working.schema.implicitForOwned? decl.owned with
    | none => exact .throw
    | some q =>
      exact .newThing (.editGraph fun _ _ _ => .editGraph fun _ _ _ => .editGraph fun _ _ _ =>
        .record (.pure (Or.inr ⟨_, rfl, rfl, rfl⟩)))

theorem removeThing_unrecorded (id : ThingId) :
    Ensures (removeThing id) t fun _ t' => t'.mutations = t.mutations :=
  .editGraph fun _ _ _ => .pure rfl

theorem removeAll_unrecorded (edges : List OwnershipEdge) :
    Ensures (edges.forM fun e => removeThing e.relation) t fun _ t' => t'.mutations = t.mutations := by
  induction edges generalizing t with
  | nil => exact .pure rfl
  | cons e edges ih =>
    exact .bind ((removeThing_unrecorded e.relation).weaken fun _ t' hsame => ih.weaken fun _ _ h => h.trans hsame)

theorem logged_unsetHas (owner held : ThingId) :
    Ensures (unsetHas owner held) t fun removed t' => Logged (.unsetHas owner held) t (.flag removed) t' := by
  refine .ask fun _ _ => .ask fun _ _ => .look ?_
  cases t.working.ownershipBetween? owner held with
  | none => exact .pure (Or.inl rfl)
  | some id =>
    refine .bind ((removeThing_unrecorded id).weaken fun _ t' hsame => .record (.pure ?_))
    exact Or.inr ⟨_, congrArg (· ++ [_]) hsame, rfl, rfl⟩

theorem logged_deleteThing (id : ThingId) :
    Ensures (deleteThing id) t fun _ t' => Logged (.deleteThing id) t .done t' := by
  refine .ask fun _ _ => .look (.bind ((removeAll_unrecorded _).weaken fun _ t₁ h₁ => ?_))
  refine .bind ((removeThing_unrecorded id).weaken fun _ t₂ h₂ => .record_last ?_)
  exact Or.inr ⟨_, congrArg (· ++ [_]) (h₂.trans h₁), rfl, rfl⟩

end Transaction

open Transaction

/-- **Operations** on types and instances change nothing, or record one mutation, which names them. -/
theorem Operation.logged {op : Operation} (hop : op.editsSchema ∨ op.editsGraph)
    (hplain : ∀ label v, op ≠ .putAttributeType label (some v)) (t : Transaction) :
    Ensures op.perform t fun r t' => Logged op t r t' := by
  cases op with
  | putEntityType label => exact .map (logged_putType label rfl fun _ _ => rfl)
  | putRelationType label => exact .map (logged_putType label rfl fun _ _ => rfl)
  | putRole label => exact .map (logged_putType label rfl fun _ _ => rfl)
  | putAttributeType label dataType =>
    cases dataType with
    | some v => exact absurd rfl (hplain label v)
    | none =>
      refine .map (.ask fun found _ => ?_)
      cases found with
      | some x => exact .pure (Or.inl rfl)
      | none => exact logged_putType label rfl fun _ _ => rfl
  | setDataType a dataType => exact .map (logged_setDataType a dataType)
  | setSupertype a p => exact .map (.ask fun _ _ => .look (logged_when (logged_change rfl rfl)))
  | setLabel a label => exact .map (.get (.ask fun _ _ => .ask fun _ _ => logged_when (logged_change rfl rfl)))
  | deleteType a => exact .map (.ask fun _ _ => logged_change rfl rfl)
  | setRegex a source => exact .map (.ask fun _ _ => logged_change rfl rfl)
  | setAbstract | unsetRegex | plays | unplay | relates | unrelate | unkey =>
    exact .map (.ask fun _ _ => .ask fun _ _ => logged_when (logged_change rfl rfl))
  | unhas a owned => exact .map (.ask fun _ _ => .look (.ask fun _ _ => logged_when (logged_change rfl rfl)))
  | has | key => exact .map (.ask fun _ _ => .ask fun _ _ => logged_when (logged_declareOwnership _ _ _ rfl rfl))
  | createEntity a => exact .map (logged_create .entity fun _ hk => by simp [Mutation.operation, hk])
  | createRelation a => exact .map (logged_create (.relation ∅) fun _ hk => by simp [Mutation.operation, hk])
  | putAttribute a value => exact .map (logged_putAttribute a value)
  | addRolePlayer relation role player => exact .map (logged_addRolePlayer relation role player)
  | removeRolePlayer relation role player => exact .map (logged_removeRolePlayer relation role player)
  | setHas owner held => exact .map (logged_setHas owner held)
  | unsetHas owner held => exact .map (logged_unsetHas owner held)
  | deleteThing id => exact .map (logged_deleteThing id)
  | savepoint | rollbackTo | releaseSavepoint =>
    rcases hop with hop | hop <;> cases hop

end ConceptGraph
