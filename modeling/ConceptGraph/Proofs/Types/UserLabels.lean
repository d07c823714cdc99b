/-
The labels that users give. They are not empty, do not start with `@`, have no `:` in them and are not too long; and as
the limit on their length is that of the session, a label that was given once could be given again.

- `Label.Proper`: what a user may call an element. `checkLabel_iff`: that is what the rules ask.
- `Schema.Named`: all labels are proper, but for those of the library and of the five types to start from.
- `KeepsNames`: an edit that keeps them so, whatever comes of it. So do the primitive edits of a schema, and with them
  all operations (`Operation.keepsNames`).
- `Session.run_named`: schemas are named so along every run, and the open transaction has the limit of the session.
-/
import ConceptGraph.Proofs.Keys.KeptKeys

namespace ConceptGraph

open Std

namespace Label

/-- what users may call an element, if labels have at most `limit` characters -/
structure Proper (limit : Nat) (l : Label) : Prop where
  nonempty : l.toList ≠ []
  plain : ¬ isReserved l
  unscoped : scopeMark ∉ l.toList
  fits : l.toList.length ≤ limit

/-- whether the label is one of the library's, or a user may give it -/
def Granted (limit : Nat) (l : Label) : Prop := isReserved l ∨ Proper limit l

end Label

/-- **The rule** for labels asks for proper ones, and for nothing else. -/
theorem State.checkLabel_iff {l : Label} {limit : Nat} {u : Unit} :
    checkLabel l limit = .ok u ↔ Label.Proper limit l := by
  simp only [checkLabel, if_throw_eq_ok, List.contains_iff_mem, pure_eq_ok, and_true, Nat.not_lt]
  constructor
  · rintro ⟨hne, hl, hun, hfits⟩
    exact ⟨hne, hl, hun, hfits⟩
  · intro h
    exact ⟨h.nonempty, h.plain, h.unscoped, h.fits⟩

/-! ## Schemas -/

namespace Schema

variable {s s' : Schema} {limit : Nat} {t p : TypeId} {d : TypeDef} {l : Label}

/-- all labels are granted, but for those of the types to start from -/
def Named (limit : Nat) (s : Schema) : Prop :=
  ∀ x e, s.get? x = some e → ¬ s.isMeta x → Label.Granted limit e.label

theorem bootstrap_named (limit : Nat) {m : MetaTypes} (hm : m.toList.Nodup) : (bootstrap m).Named limit := by
  intro x e he hx
  refine absurd ?_ hx
  rw [isMeta_iff, metaTypes_bootstrap]
  exact mem_of_bootstrap hm he

/-- an edit grants new labels, and leaves the others where they are -/
theorem Named.edited (h : s.Named limit) (hm : s'.metaTypes = s.metaTypes)
    (hl : ∀ x e, s'.get? x = some e → Label.Granted limit e.label ∨ ∃ e', s.get? x = some e' ∧ e'.label = e.label) :
    s'.Named limit := by
  intro x e he hx
  rcases hl x e he with hgranted | ⟨e', he', hsame⟩
  · exact hgranted
  · exact hsame ▸ h x e' he' fun hmeta => hx ((isMeta_congr hm).2 hmeta)

theorem Named.change (h : s.Named limit) {f : TypeDef → TypeDef} (hc : s.change t f = .ok s')
    (hf : ∀ d, (f d).label = d.label) : s'.Named limit := by
  obtain ⟨d, hd, rfl⟩ := change_eq_ok.1 hc
  refine h.edited rfl fun x e he => Or.inr ?_
  rw [get?_redefine] at he
  split at he
  · rename_i hx
    exact ⟨d, hx ▸ hd, by rw [← Option.some.inj he, hf]⟩
  · exact ⟨e, he, rfl⟩

theorem Named.insert (h : s.Named limit) (hi : s.insert t d p = .ok s') (hl : Label.Granted limit d.label) :
    s'.Named limit := by
  refine h.edited (tables_insert hi).1 fun x e he => ?_
  rw [get?_insert hi] at he
  split at he
  · exact Or.inl (Option.some.inj he ▸ hl)
  · exact Or.inr ⟨e, he, rfl⟩

theorem Named.relabel (h : s.Named limit) (hl : Label.Granted limit l) (hr : s.relabel t l = .ok s') :
    s'.Named limit := by
  refine h.edited (tables_relabel hr).1 fun x e he => ?_
  rw [get?_relabel hr] at he
  split at he
  · obtain ⟨d, -, rfl⟩ := Option.map_eq_some_iff.1 he
    exact Or.inl hl
  · exact Or.inr ⟨e, he, rfl⟩

theorem Named.reparent (h : s.Named limit) {old : Option TypeId} (hm : s.reparent t p = .ok (old, s')) :
    s'.Named limit :=
  h.edited (tables_reparent hm).2.2.1 fun x e he => Or.inr ⟨e, (get?_reparent hm x).symm.trans he, rfl⟩

theorem Named.remove (h : s.Named limit) (hr : s.remove t = .ok (d, s')) : s'.Named limit := by
  refine h.edited (tables_remove hr).1 fun x e he => ?_
  rw [get?_remove hr] at he
  split at he
  · simp at he
  · exact Or.inr ⟨e, he, rfl⟩

/-- the types that record an ownership get labels of the library -/
theorem Named.insertImplicit (h : s.Named limit) {r : ImplicitOwnership}
    (hi : Transaction.insertImplicit s r l = .ok s') : s'.Named limit := by
  simp only [Transaction.insertImplicit, bind_eq_ok, pure_eq_ok] at hi
  obtain ⟨s₁, h₁, s₂, h₂, s₃, h₃, s₄, h₄, rfl⟩ := hi
  have hnamed₁ := h.insert h₁ (Or.inl (Label.isReserved_ownerRole l))
  have hnamed₂ := hnamed₁.insert h₂ (Or.inl (Label.isReserved_valueRole l))
  have hnamed₃ := hnamed₂.insert h₃ (Or.inl (Label.isReserved_ownershipRelation l))
  have hnamed₄ := hnamed₃.change h₄ fun _ => rfl
  exact hnamed₄.edited rfl fun x e he => Or.inr ⟨e, he, rfl⟩

/-- a user's label is given to an element, and labels of the library to those that go with it -/
theorem Named.relabelAll (h : s.Named limit) (hl : Label.Proper limit l)
    (hr : Transaction.relabelAll s t l = .ok s') : s'.Named limit := by
  cases hrec : s.implicitForOwned? t with
  | none => exact h.relabel (Or.inr hl) ((relabelAll_of_none hrec).1 hr)
  | some r =>
    obtain ⟨s₁, s₂, s₃, h₁, h₂, h₃, h₄⟩ := (relabelAll_of_some hrec).1 hr
    have hnamed₁ := h.relabel (Or.inr hl) h₁
    have hnamed₂ := hnamed₁.relabel (Or.inl (Label.isReserved_ownershipRelation l)) h₂
    have hnamed₃ := hnamed₂.relabel (Or.inl (Label.isReserved_ownerRole l)) h₃
    exact hnamed₃.relabel (Or.inl (Label.isReserved_valueRole l)) h₄

theorem Named.removeAll (h : s.Named limit) (hr : Transaction.removeAll s t = .ok s') : s'.Named limit := by
  have hwithdrawn : ∀ record, ((s.unregisterImplicit t).redefineAll (Transaction.withdraw t record)).Named limit := by
    have hu : (s.unregisterImplicit t).metaTypes = s.metaTypes ∧ (s.unregisterImplicit t).defs = s.defs := by
      unfold unregisterImplicit
      split <;> exact ⟨rfl, rfl⟩
    refine fun record => h.edited hu.1 fun x e he => Or.inr ?_
    rw [get?_redefineAll, Option.map_eq_some_iff] at he
    obtain ⟨e', he', rfl⟩ := he
    exact ⟨e', by rwa [get?, hu.2] at he', label_withdraw.symm⟩
  unfold Transaction.removeAll at hr
  cases hrec : s.implicitForOwned? t with
  | none =>
    simp only [hrec, bind_eq_ok, pure_eq_ok] at hr
    obtain ⟨_, rfl, ⟨d, s₁⟩, h₁, rfl⟩ := hr
    exact (hwithdrawn _).remove h₁
  | some r =>
    simp only [hrec, bind_eq_ok, pure_eq_ok] at hr
    obtain ⟨⟨d₁, s₁⟩, h₁, ⟨d₂, s₂⟩, h₂, ⟨d₃, s₃⟩, h₃, _, rfl, ⟨d₄, s₄⟩, h₄, rfl⟩ := hr
    exact ((((hwithdrawn _).remove h₁).remove h₂).remove h₃).remove h₄

end Schema

/-! ## Edits -/

namespace Transaction

variable {α β : Type} {t : Transaction} {limit : Nat} {m : Mutation}

/-- the transaction has that limit, and the labels of its states are granted -/
structure Named (limit : Nat) (t : Transaction) : Prop where
  labelLimit : t.labelLimit = limit
  states : t.Everywhere fun s => s.schema.Named limit

/-- the edit grants labels, whatever comes of it -/
def KeepsNames (limit : Nat) (e : Edit α) : Prop := ∀ t : Transaction, t.Named limit → (outcome e t).2.Named limit

namespace KeepsNames

theorem pure (a : α) : KeepsNames limit (pure a) := fun _ ht => ht

theorem throw (err : ConceptError) : KeepsNames limit (throw err : Edit α) := fun _ ht => ht

theorem record (m : Mutation) : KeepsNames limit (record m) := fun _ ht => ⟨ht.labelLimit, ht.states.1, ht.states.2⟩

theorem bind {e : Edit β} {k : β → Edit α} (he : KeepsNames limit e) (hk : ∀ b, KeepsNames limit (k b)) :
    KeepsNames limit (e >>= k) := by
  intro t ht
  rw [outcome_bind]
  have ht' := he t ht
  cases h : outcome e t with
  | mk r t' =>
    rw [h] at ht'
    cases r with
    | error err => exact ht'
    | ok b => exact hk b t' ht'

theorem map {f : α → β} {e : Edit α} (he : KeepsNames limit e) : KeepsNames limit (f <$> e) := by
  rw [map_eq_pure_bind]
  exact he.bind fun a => .pure _

/-- the rest may rely on the answer -/
theorem ask {f : State → Except ConceptError β} {k : β → Edit α}
    (hk : ∀ b, (∃ s, f s = .ok b) → KeepsNames limit (k b)) : KeepsNames limit (ask f >>= k) := by
  intro t ht
  rw [outcome_bind, outcome_ask]
  cases hf : f t.working with
  | error err => exact ht
  | ok b => exact hk b ⟨t.working, hf⟩ t ht

theorem look {f : State → β} {k : β → Edit α} (hk : ∀ b, KeepsNames limit (k b)) : KeepsNames limit (look f >>= k) :=
  fun t ht => hk _ t ht

/-- the rest may rely on the limit -/
theorem get {k : Transaction → Edit α} (hk : ∀ t, t.labelLimit = limit → KeepsNames limit (k t)) :
    KeepsNames limit (get >>= k) := fun t ht => hk t ht.labelLimit t ht

theorem newType {k : TypeId → Edit α} (hk : ∀ x, KeepsNames limit (k x)) : KeepsNames limit (newType >>= k) :=
  fun _ ht => hk _ _ ⟨ht.labelLimit, ht.states.1, ht.states.2⟩

theorem newThing {k : ThingId → Edit α} (hk : ∀ x, KeepsNames limit (k x)) : KeepsNames limit (newThing >>= k) :=
  fun _ ht => hk _ _ ⟨ht.labelLimit, ht.states.1, ht.states.2⟩

theorem editSchema {f : Schema → Except ConceptError Schema}
    (hf : ∀ s s' : Schema, s.Named limit → f s = .ok s' → s'.Named limit) : KeepsNames limit (editSchema f) := by
  intro t ht
  rw [outcome_editSchema]
  split
  · exact ⟨ht.labelLimit, hf _ _ ht.states.1 ‹_›, ht.states.2⟩
  · exact ht

theorem editGraph (f : Graph → Except ConceptError (α × Graph)) : KeepsNames limit (editGraph f) := by
  intro t ht
  rw [outcome_editGraph]
  split
  · exact ⟨ht.labelLimit, ht.states.1, ht.states.2⟩
  · exact ht

/-- an edit of one definition that leaves its label, and its mutation -/
theorem changed {a : TypeId} {f : TypeDef → TypeDef} (hf : ∀ d, (f d).label = d.label) :
    KeepsNames limit (Transaction.editSchema (fun schema => schema.change a f) >>= fun _ => Transaction.record m) :=
  (editSchema fun _ _ h hc => h.change hc hf).bind fun _ => .record m

/-- what is done only where something is not yet as wanted -/
theorem when {c : Prop} [Decidable c] {e : Edit Unit} (he : KeepsNames limit e) :
    KeepsNames limit (if c then e else Pure.pure ()) := by
  split
  · exact he
  · exact .pure ()

end KeepsNames

/-! ## Operations -/

theorem keepsNames_putType (l : String) (body : TypeBody) : KeepsNames limit (putType l body) := by
  refine .ask fun found _ => ?_
  cases found with
  | some x => exact .pure x
  | none =>
    refine .look fun p => .get fun t ht => .ask fun _ ⟨s, hc⟩ => .newType fun x => ?_
    simp only [State.checkNewType, bind_eq_ok, State.checkLabel_iff, ht] at hc
    obtain ⟨-, hl, -⟩ := hc
    refine (KeepsNames.editSchema fun _ _ h hi => h.insert hi (Or.inr hl)).bind fun _ =>
      (KeepsNames.record _).bind fun _ => ?_
    split
    · exact (KeepsNames.record _).bind fun _ => .pure x
    · exact .pure x

theorem keepsNames_setDataType (a : TypeId) (v : DataType) : KeepsNames limit (setDataType a v) :=
  .ask fun _ _ => .ask fun _ _ => .when (.changed fun d => (d.setDataType_sameRefs (some v)).label)

theorem keepsNames_putAttributeType (l : String) (dataType : Option DataType) :
    KeepsNames limit (putAttributeType l dataType) := by
  refine .ask fun found _ => ?_
  cases found with
  | none => exact keepsNames_putType _ _
  | some x =>
    cases dataType with
    | none => exact .pure x
    | some v =>
      refine .look fun current => ?_
      split
      · exact (keepsNames_setDataType x v).bind fun _ => .pure x
      · exact .pure x

theorem keepsNames_setSupertype (a p : TypeId) : KeepsNames limit (setSupertype a p) := by
  refine .ask fun _ _ => .look fun _ => .when ((KeepsNames.editSchema fun s s' h hm => ?_).bind fun _ => .record _)
  simp only [bind_eq_ok, pure_eq_ok] at hm
  obtain ⟨⟨old, moved⟩, hm, rfl⟩ := hm
  exact h.reparent hm

theorem keepsNames_setLabel (a : TypeId) (l : String) : KeepsNames limit (setLabel a l) := by
  refine .get fun t ht => .ask fun _ ⟨s, hc⟩ => .ask fun _ _ => .when ?_
  simp only [State.checkSetLabel, bind_eq_ok, State.checkLabel_iff, ht] at hc
  obtain ⟨-, -, -, hl, -⟩ := hc
  exact (KeepsNames.editSchema fun _ _ h hr => h.relabelAll hl hr).bind fun _ => .record _

theorem keepsNames_declareOwnership (a owned : TypeId) (ownership : Ownership) (m : Mutation) :
    KeepsNames limit (declareOwnership a owned ownership >>= fun _ => record m) := by
  have hrecord : KeepsNames limit (ensureImplicit owned) := by
    refine .look fun found => ?_
    cases found with
    | some r => exact .pure r
    | none =>
      exact .ask fun _ _ => .newType fun _ => .newType fun _ => .newType fun _ =>
        (KeepsNames.editSchema fun _ _ h hi => h.insertImplicit hi).bind fun _ => .pure _
  exact .bind (hrecord.bind fun _ => .editSchema fun _ _ h hc => h.change hc fun _ => rfl) fun _ => .record m

theorem keepsNames_create (a : TypeId) (kind : Kind) (body : ThingBody) : KeepsNames limit (create a kind body) :=
  .ask fun _ _ => .newThing fun id => (KeepsNames.editGraph _).bind fun _ => (KeepsNames.record _).bind fun _ => .pure id

theorem keepsNames_putAttribute (a : TypeId) (value : Value) : KeepsNames limit (putAttribute a value) := by
  refine .ask fun _ _ => .look fun found => ?_
  cases found with
  | some id => exact .pure id
  | none =>
    exact .newThing fun id => (KeepsNames.editGraph _).bind fun _ => (KeepsNames.record _).bind fun _ => .pure id

theorem keepsNames_addRolePlayer (r : ThingId) (role : TypeId) (p : ThingId) :
    KeepsNames limit (addRolePlayer r role p) :=
  .ask fun _ _ => (KeepsNames.editGraph _).bind fun _ => .when (.record _)

theorem keepsNames_removeRolePlayer (r : ThingId) (role : TypeId) (p : ThingId) :
    KeepsNames limit (removeRolePlayer r role p) := by
  refine .ask fun _ _ => (KeepsNames.editGraph _).bind fun removed => ?_
  split
  · exact (KeepsNames.record _).bind fun _ => .pure removed
  · exact .pure removed

theorem keepsNames_setHas (o a : ThingId) : KeepsNames limit (setHas o a) := by
  refine .ask fun decl _ => .look fun found => ?_
  cases found with
  | some r => exact .pure r
  | none =>
    refine .look fun found => ?_
    cases found with
    | none => exact .throw _
    | some q =>
      exact .newThing fun r => (KeepsNames.editGraph _).bind fun _ => (KeepsNames.editGraph _).bind fun _ =>
        (KeepsNames.editGraph _).bind fun _ => (KeepsNames.record _).bind fun _ => .pure r

theorem keepsNames_removeThing (id : ThingId) : KeepsNames limit (removeThing id) :=
  (KeepsNames.editGraph _).bind fun _ => .pure ()

theorem keepsNames_unsetHas (o a : ThingId) : KeepsNames limit (unsetHas o a) := by
  refine .ask fun _ _ => .ask fun _ _ => .look fun found => ?_
  cases found with
  | none => exact .pure false
  | some r => exact (keepsNames_removeThing r).bind fun _ => (KeepsNames.record _).bind fun _ => .pure true

theorem keepsNames_deleteThing (id : ThingId) : KeepsNames limit (deleteThing id) := by
  have hedges : ∀ edges : List OwnershipEdge, KeepsNames limit (edges.forM fun e => removeThing e.relation) := by
    intro edges
    induction edges with
    | nil => exact .pure ()
    | cons e edges ih => exact (keepsNames_removeThing e.relation).bind fun _ => ih
  exact .ask fun _ _ => .look fun edges => (hedges edges).bind fun _ => (keepsNames_removeThing id).bind fun _ => .record _

theorem keepsNames_savepoint (name : String) : KeepsNames limit (savepoint name) := by
  refine fun t ht => ⟨ht.labelLimit, ht.states.1, fun name' sp hsp => ?_⟩
  rw [outcome_savepoint, lookup_insert] at hsp
  split at hsp
  · exact Option.some.inj hsp ▸ ht.states.1
  · exact ht.states.2 name' sp hsp

theorem keepsNames_rollbackTo (name : String) : KeepsNames limit (rollbackTo name) := by
  intro t ht
  rw [outcome_rollbackTo]
  cases hsp : t.savepoints[name]? with
  | none => exact ht
  | some sp =>
    refine ⟨ht.labelLimit, ht.states.2 name sp hsp, fun name' sp' hsp' => ht.states.2 name' sp' ?_⟩
    rw [ExtTreeMap.getElem?_filter'] at hsp'
    exact Option.eq_some_of_filter_eq_some hsp'

theorem keepsNames_releaseSavepoint (name : String) : KeepsNames limit (releaseSavepoint name) := by
  intro t ht
  rw [outcome_releaseSavepoint]
  split
  · refine ⟨ht.labelLimit, ht.states.1, fun name' sp hsp => ht.states.2 name' sp ?_⟩
    rw [lookup_erase] at hsp
    split at hsp
    · simp at hsp
    · exact hsp
  · exact ht

end Transaction

open Transaction

/-- **Any operation** grants labels, whatever comes of it. -/
theorem Operation.keepsNames (limit : Nat) (op : Operation) : KeepsNames limit op.perform := by
  cases op with
  | putEntityType | putRelationType | putRole => exact (keepsNames_putType _ _).map
  | putAttributeType l dataType => exact (keepsNames_putAttributeType l dataType).map
  | setSupertype a p => exact (keepsNames_setSupertype a p).map
  | setLabel a l => exact (keepsNames_setLabel a l).map
  | setDataType a v => exact (keepsNames_setDataType a v).map
  | deleteType a =>
    exact .map (.ask fun _ _ => (KeepsNames.editSchema fun _ _ h hr => h.removeAll hr).bind fun _ => .record _)
  | setRegex a source => exact .map (.ask fun p _ => .changed fun d => (d.setRegex_sameRefs (some p)).label)
  | unsetRegex a => exact .map (.ask fun _ _ => .ask fun _ _ => .when (.changed fun d => (d.setRegex_sameRefs none).label))
  | setAbstract | plays | unplay | unkey =>
    exact .map (.ask fun _ _ => .ask fun _ _ => .when (.changed fun _ => rfl))
  | relates | unrelate =>
    exact .map (.ask fun _ _ => .ask fun _ _ => .when (.changed fun d => (d.changeRelates_other _).1))
  | unhas a owned => exact .map (.ask fun _ _ => .look fun _ => .ask fun _ _ => .when (.changed fun _ => rfl))
  | has | key => exact .map (.ask fun _ _ => .ask fun _ _ => .when (keepsNames_declareOwnership _ _ _ _))
  | createEntity | createRelation => exact (keepsNames_create _ _ _).map
  | putAttribute a value => exact (keepsNames_putAttribute a value).map
  | addRolePlayer r role p => exact (keepsNames_addRolePlayer r role p).map
  | removeRolePlayer r role p => exact (keepsNames_removeRolePlayer r role p).map
  | setHas o a => exact (keepsNames_setHas o a).map
  | unsetHas o a => exact (keepsNames_unsetHas o a).map
  | deleteThing id => exact (keepsNames_deleteThing id).map
  | savepoint name => exact (keepsNames_savepoint name).map
  | rollbackTo name => exact (keepsNames_rollbackTo name).map
  | releaseSavepoint name => exact (keepsNames_releaseSavepoint name).map

/-! ## Runs -/

namespace Session

variable {config : SessionConfig} {ids : Option IdSource} {journal : Option Journal} {s : Session} {es : List Event}
  {t : Transaction}

/-- labels have been granted under the limit of the session -/
structure Named (s : Session) : Prop where
  committed : s.committed.schema.Named s.config.maxLabelLen.toNat
  writer : ∀ t, s.writer = some t → t.Named s.config.maxLabelLen.toNat

theorem step_named (h : s.Named) (e : Event) : (s.step e).Named := by
  have hstates : s.Everywhere fun x => x.schema.Named s.config.maxLabelLen.toNat :=
    ⟨h.committed, fun t hw => (h.writer t hw).states⟩
  have hstep := step_everywhere hstates e fun op t _ hw => (op.keepsNames _ t (h.writer t hw)).states
  have hlimit : ∀ t', (s.step e).writer = some t' → t'.labelLimit = s.config.maxLabelLen.toNat := by
    intro t' hw'
    cases hw : s.writer with
    | none =>
      by_cases he : e = .begin
      · rw [he, step_begin_idle hw] at hw'
        exact Option.some.inj hw' ▸ rfl
      · rw [writer_step_idle hw he] at hw'
        cases hw'
    | some t =>
      have ht := h.writer t hw
      cases e with
      | perform op =>
        rw [step_perform hw] at hw'
        exact Option.some.inj hw' ▸ (op.keepsNames _ t ht).labelLimit
      | commit now =>
        rw [step_commit hw] at hw'
        have hnone := (s.finish_cases t now).1
        exact absurd (hnone.symm.trans hw') (by simp)
      | begin =>
        rw [step_begin hw, hw] at hw'
        exact Option.some.inj hw' ▸ ht.labelLimit
      | rollback =>
        rw [step_rollback hw] at hw'
        cases hw'
      | rejectNextCommit => exact Option.some.inj (hw.symm.trans hw') ▸ ht.labelLimit
      | drawElsewhere count =>
        rw [step_drawElsewhere hw] at hw'
        exact Option.some.inj hw' ▸ ht.labelLimit
  rw [← config_step s e] at hstep hlimit
  exact ⟨hstep.committed, fun t hw => ⟨hlimit t hw, hstep.writer t hw⟩⟩

/-- **Labels of users are proper** in all states along a run, and the open transaction has the limit of the session. -/
theorem run_named (hs : start config ids journal = .ok s) (es : List Event) : (s.run es).Named := by
  refine run_induction (P := Named) ?_ (fun p e _ h => step_named h e) (List.prefix_refl es)
  obtain ⟨hc, hw, -⟩ := start_spec hs
  refine ⟨hc ▸ Schema.bootstrap_named _ (MetaTypes.nodup_take _), fun t ht => ?_⟩
  simp [hw] at ht

theorem writer_named (hs : start config ids journal = .ok s) (hw : (s.run es).writer = some t) :
    t.Named config.maxLabelLen.toNat := by
  have h := (run_named hs es).writer t hw
  rwa [config_run, start_eq hs] at h

end Session

end ConceptGraph
