/-
Operations as data: what it means that one is done, and what comes of any of them.

- `Operation.Loses`, `Operation.GivesUp`: the relation types that go with a deleted one, and the ownerships that are
  meant to be given up.
- `Operation.Collapses`: deleting an instance that holds itself. That alone can be refused halfway.
- `perform_does`: any other operation is refused and changes nothing, or done.
- `Everywhere`: what holds of the working state and of the savepoints.
- `perform_sound`: whatever comes of an operation, the transaction stays sound.
-/
import ConceptGraph.Proofs.Transaction.InstanceOperations

namespace ConceptGraph

open Std

namespace Operation

/-- whether the operation is one on types -/
def editsSchema : Operation → Bool
  | .createEntity _ | .createRelation _ | .putAttribute _ _ | .addRolePlayer _ _ _ | .removeRolePlayer _ _ _
  | .setHas _ _ | .unsetHas _ _ | .deleteThing _ | .savepoint _ | .rollbackTo _ | .releaseSavepoint _ => false
  | _ => true

/-- whether the operation is one on instances -/
def editsGraph : Operation → Bool
  | .createEntity _ | .createRelation _ | .putAttribute _ _ | .addRolePlayer _ _ _ | .removeRolePlayer _ _ _
  | .setHas _ _ | .unsetHas _ _ | .deleteThing _ => true
  | _ => false

theorem not_editsGraph {op : Operation} (h : op.editsSchema) : ¬ op.editsGraph := by
  cases op with
  | createEntity | createRelation | putAttribute | addRolePlayer | removeRolePlayer | setHas | unsetHas | deleteThing =>
    cases h
  | _ => exact Bool.false_ne_true

/-- the relation types that are gone without having been asked for -/
def Loses (s : State) : Operation → TypeId → Prop
  | .deleteType t => s.RecordedBy t
  | _ => State.NoneLost

/-- the ownerships that the operation is meant to give up -/
def GivesUp : Operation → ThingId → ThingId → Prop
  | .unsetHas owner held => fun o a => o = owner ∧ a = held
  | .deleteThing id => fun o a => o = id ∨ a = id
  | _ => State.NoneGone

/-- an instance is to be deleted that holds itself -/
def Collapses (op : Operation) (s : State) : Prop :=
  ∃ x, op = .deleteThing x ∧ (s.ownershipBetween? x x).isSome

end Operation

namespace Transaction

open State

/-- **What it means** that an operation is done -/
inductive Performed (first : UInt64) (n : Nat) (t : Transaction) : Operation → Transaction → Prop where
  | schema {op : Operation} {t' : Transaction} (hop : op.editsSchema)
      (h : SchemaDone first n (op.Loses t.working) t t') : Performed first n t op t'
  | graph {op : Operation} {t' : Transaction} (hop : op.editsGraph) (h : GraphDone first n op.GivesUp t t') :
      Performed first n t op t'
  | savepoint (name : String) : Performed first n t (.savepoint name)
      { t with savepoints := t.savepoints.insert name ⟨t.working, t.mutations.length⟩ }
  | rollbackTo {name : String} {sp : Savepoint} (h : t.savepoints[name]? = some sp) :
      Performed first n t (.rollbackTo name)
        { t with
          working := sp.state
          mutations := t.mutations.take sp.applied
          savepoints := t.savepoints.filter fun _ other => other.applied ≤ sp.applied }
  | releaseSavepoint (name : String) : Performed first n t (.releaseSavepoint name)
      { t with savepoints := t.savepoints.erase name }

variable {α : Type} {first : UInt64} {n : Nat} {t t' : Transaction} {op : Operation}

theorem Does.schema {e : Edit α} {f : α → Reply} (hop : op.editsSchema)
    (h : Does n e t fun _ t' => SchemaDone first n (op.Loses t.working) t t') :
    Does n (f <$> e) t fun _ t' => Performed first n t op t' :=
  (h.weaken fun _ _ hd => .schema hop hd).map

theorem Does.graph {e : Edit α} {f : α → Reply} (hop : op.editsGraph)
    (h : Does n e t fun _ t' => GraphDone first n op.GivesUp t t') :
    Does n (f <$> e) t fun _ t' => Performed first n t op t' :=
  (h.weaken fun _ _ hd => .graph hop hd).map

/-- **Any operation** but the deletion of an instance that holds itself is refused and changes nothing, or done. -/
theorem perform_does (h : t.Sound first n) (op : Operation) (hop : ¬ op.Collapses t.working) :
    Does n op.perform t fun _ t' => Performed first n t op t' := by
  cases op with
  | putEntityType label => exact .schema rfl (putEntityType_does h label)
  | putRelationType label => exact .schema rfl (putRelationType_does h label)
  | putRole label => exact .schema rfl (putRole_does h label)
  | putAttributeType label dataType => exact .schema rfl (putAttributeType_does h label dataType)
  | setSupertype a p => exact .schema rfl (setSupertype_does h a p)
  | setLabel a label => exact .schema rfl (setLabel_does h a label)
  | setAbstract a isAbstract => exact .schema rfl (setAbstract_does h a isAbstract)
  | deleteType a => exact .schema rfl (deleteType_does h a)
  | setDataType a dataType => exact .schema rfl (setDataType_does h a dataType)
  | setRegex a source => exact .schema rfl (setRegex_does h a source)
  | unsetRegex a => exact .schema rfl (unsetRegex_does h a)
  | plays a role => exact .schema rfl (plays_does h a role)
  | unplay a role => exact .schema rfl (unplay_does h a role)
  | relates a role => exact .schema rfl (relates_does h a role)
  | unrelate a role => exact .schema rfl (unrelate_does h a role)
  | has a owned => exact .schema rfl (has_does h a owned)
  | unhas a owned => exact .schema rfl (unhas_does h a owned)
  | key a owned => exact .schema rfl (key_does h a owned)
  | unkey a owned => exact .schema rfl (unkey_does h a owned)
  | createEntity a => exact .graph rfl (createEntity_does h a)
  | createRelation a => exact .graph rfl (createRelation_does h a)
  | putAttribute a value => exact .graph rfl (putAttribute_does h a value)
  | addRolePlayer r role p => exact .graph rfl (addRolePlayer_does h r role p)
  | removeRolePlayer r role p => exact .graph rfl (removeRolePlayer_does h r role p)
  | setHas o a => exact .graph rfl (setHas_does h o a)
  | unsetHas o a => exact .graph rfl (unsetHas_does h o a)
  | deleteThing x => exact .graph rfl (deleteThing_does h x fun hx => hop ⟨x, rfl, hx⟩)
  | savepoint name => exact Does.map fun _ => Or.inr ⟨(), _, outcome_savepoint name t, .savepoint name⟩
  | rollbackTo name =>
    apply Does.map
    intro _
    cases hsp : t.savepoints[name]? with
    | none => exact Or.inl ⟨.unknownLabel name, by rw [outcome_rollbackTo, hsp]⟩
    | some sp => exact Or.inr ⟨(), _, by rw [outcome_rollbackTo, hsp], .rollbackTo hsp⟩
  | releaseSavepoint name =>
    apply Does.map
    intro _
    by_cases hsp : t.savepoints.contains name
    · exact Or.inr ⟨(), _, by rw [outcome_releaseSavepoint, if_pos hsp], .releaseSavepoint name⟩
    · exact Or.inl ⟨.unknownLabel name, by rw [outcome_releaseSavepoint, if_neg hsp]⟩

/-- the deletion of an instance that holds itself has changed the graph by the time that it is refused -/
theorem perform_collapses (h : t.Sound first n) (hop : op.Collapses t.working) :
    ∃ err graph', t.perform op = (.error err, t.withGraph graph') ∧
      GraphStep first n 0 op.GivesUp t.working { t.working with graph := graph' } ∧ graph' ≠ t.working.graph := by
  obtain ⟨x, rfl, hx⟩ := hop
  obtain ⟨err, graph', hout, hstep, hne⟩ := deleteThing_breaks h x hx
  refine ⟨err, graph', ?_, hstep, hne⟩
  rw [perform_eq]
  show outcome ((fun _ => Reply.done) <$> deleteThing x) t = _
  rw [outcome_map, hout]
  rfl

/-- **What comes of an operation** -/
theorem perform_cases (h : t.Sound first n) (op : Operation) (hfit : n + drawn t (t.perform op).2 < 2 ^ 64) :
    (∃ err, t.perform op = (.error err, t)) ∨ (∃ r t', t.perform op = (.ok r, t') ∧ Performed first n t op t') ∨
    ∃ err graph', op.Collapses t.working ∧ t.perform op = (.error err, t.withGraph graph') ∧
      GraphStep first n 0 op.GivesUp t.working { t.working with graph := graph' } ∧ graph' ≠ t.working.graph := by
  by_cases hop : op.Collapses t.working
  · obtain ⟨err, graph', hrest⟩ := perform_collapses h hop
    exact Or.inr (Or.inr ⟨err, graph', hop, hrest⟩)
  · exact (perform_does h op hop hfit).imp_right Or.inl

/-- an operation that has answered is done -/
theorem performed_of_ok {r : Reply} (h : t.Sound first n) (hfit : n + drawn t (t.perform op).2 < 2 ^ 64)
    (hok : (t.perform op).1 = .ok r) : Performed first n t op (t.perform op).2 := by
  rcases perform_cases h op hfit with ⟨err, heq⟩ | ⟨r', t', heq, hp⟩ | ⟨err, graph', -, heq, -⟩
  · simp [heq] at hok
  · rwa [heq]
  · simp [heq] at hok

/-- an operation on the schema is done as one -/
theorem Performed.schemaDone (hp : Performed first n t op t') (hop : op.editsSchema) :
    SchemaDone first n (op.Loses t.working) t t' := by
  cases hp with
  | schema _ h => exact h
  | graph hg _ => exact absurd hg (Operation.not_editsGraph hop)
  | _ => cases hop

/-! ## The states of a transaction -/

/-- the working state has the property, and so have the states that can be returned to -/
structure Everywhere (P : State → Prop) (t : Transaction) : Prop where
  working : P t.working
  savepoints : ∀ (name : String) (sp : Savepoint), t.savepoints[name]? = some sp → P sp.state

theorem Everywhere.imp {P Q : State → Prop} (h : t.Everywhere P) (hpq : ∀ s, P s → Q s) : t.Everywhere Q :=
  ⟨hpq _ h.working, fun name sp hsp => hpq _ (h.savepoints name sp hsp)⟩

theorem Everywhere.and {P Q : State → Prop} (h : t.Everywhere P) (h' : t.Everywhere Q) :
    t.Everywhere fun s => P s ∧ Q s :=
  ⟨⟨h.working, h'.working⟩, fun name sp hsp => ⟨h.savepoints name sp hsp, h'.savepoints name sp hsp⟩⟩

/-- to return to a savepoint leads to no state that is not there already -/
theorem Performed.everywhere {P : State → Prop} (h : t.Everywhere P) (hp : Performed first n t op t')
    (hs : op.editsSchema → SchemaDone first n (op.Loses t.working) t t' → P t'.working)
    (hg : op.editsGraph → GraphDone first n op.GivesUp t t' → P t'.working) : t'.Everywhere P := by
  cases hp with
  | schema hop hd =>
    obtain ⟨k, hk, hids, hsp, hstep⟩ := hd
    exact ⟨hs hop ⟨k, hk, hids, hsp, hstep⟩, fun name sp hx => h.savepoints name sp (hsp ▸ hx)⟩
  | graph hop hd =>
    obtain ⟨k, hk, hids, hsp, hstep⟩ := hd
    exact ⟨hg hop ⟨k, hk, hids, hsp, hstep⟩, fun name sp hx => h.savepoints name sp (hsp ▸ hx)⟩
  | savepoint name =>
    refine ⟨h.working, fun name' sp hsp => ?_⟩
    rw [lookup_insert] at hsp
    split at hsp
    · rw [← Option.some.inj hsp]
      exact h.working
    · exact h.savepoints name' sp hsp
  | rollbackTo hsp =>
    refine ⟨h.savepoints _ _ hsp, fun name sp hx => ?_⟩
    rw [ExtTreeMap.getElem?_filter'] at hx
    exact h.savepoints name sp (Option.eq_some_of_filter_eq_some hx)
  | releaseSavepoint name =>
    refine ⟨h.working, fun name' sp hx => ?_⟩
    rw [lookup_erase] at hx
    split at hx
    · simp at hx
    · exact h.savepoints name' sp hx

theorem Sound.everywhere (h : t.Sound first n) {m : Nat} (hnm : n ≤ m) :
    t.Everywhere fun s => s.Sound first m :=
  ⟨h.working.mono hnm, fun name sp hsp => (h.savepoints name sp hsp).mono hnm⟩

/-- the identifiers that have been drawn are those up to the next one -/
theorem next_drawn (t t' : Transaction) : t'.ids.next = t.ids.next + UInt64.ofNat (drawn t t') := by
  rw [drawn, UInt64.ofNat_toNat, UInt64.add_comm, UInt64.sub_add_cancel]

theorem drawn_eq {k : Nat} (hids : t'.ids.next = t.ids.next + UInt64.ofNat k) (hk : k < 2 ^ 64) : drawn t t' = k := by
  rw [drawn, hids, toNat_offset _ hk]

/-- **Soundness** is kept by any operation, whatever comes of it. -/
theorem perform_sound (h : t.Sound first n) (op : Operation) (hfit : n + drawn t (t.perform op).2 < 2 ^ 64) :
    (t.perform op).2.Sound first (n + drawn t (t.perform op).2) := by
  suffices hev : (t.perform op).2.Everywhere fun s => s.Sound first (n + drawn t (t.perform op).2) by
    refine ⟨?_, hev.working, hev.savepoints⟩
    rw [next_drawn t, h.ids, UInt64.ofNat_add, UInt64.add_assoc]
  have hev := h.everywhere (Nat.le_add_right n (drawn t (t.perform op).2))
  rcases perform_cases h op hfit with ⟨err, heq⟩ | ⟨r, t', heq, hp⟩ | ⟨err, graph', -, heq, hstep, -⟩
  · rw [heq] at hev ⊢
    exact hev
  · rw [heq] at hev ⊢
    refine hp.everywhere hev ?_ ?_
    · rintro - ⟨k, hk, hids, -, hstep⟩
      rw [drawn_eq hids (by omega)]
      exact hstep.sound
    · rintro - ⟨k, hk, hids, -, hstep⟩
      rw [drawn_eq hids (by omega)]
      exact hstep.sound
  · rw [heq] at hev ⊢
    exact ⟨hstep.sound.mono (Nat.le_add_right _ _), hev.savepoints⟩

end Transaction

end ConceptGraph
