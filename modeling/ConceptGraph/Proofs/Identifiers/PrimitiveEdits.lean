/-
What operations are made of, as far as identifiers are concerned. No operation is taken to be done here, nor the state
to be sound: whatever comes of an operation, it has drawn at most three identifiers in a row, and has edited one of the
two stores, step by step, putting in only what it has drawn.

- `IdSource.upcoming`: the next identifiers of a source.
- `Reached`: a transaction as it is after such edits. `Reaches`: an edit that leads there, whatever comes of it; the
  rules after it take an edit apart.
- `reaches_schema`, `reaches_graph`: so does every operation on types, and every operation on instances.
- `SchemaEdited`, `GraphEdited`: what the states are then like. `perform_schemaEdited`, `perform_graphEdited`: so they
  are after an operation.
- `Session.run_forests`: the supertypes form forests in every state that a session gets to.
-/
import ConceptGraph.Proofs.Identifiers.Mentions
import ConceptGraph.Proofs.Schema.RecordRenaming
import ConceptGraph.Proofs.Session.Savepoints

namespace ConceptGraph

open Std

/-! ## Identifiers in a row -/

namespace IdSource

variable {ids : IdSource} {raw : UInt64} {k m : Nat}

/-- the next `k` identifiers, in the order in which they are handed out -/
def upcoming : IdSource → Nat → List UInt64
  | _, 0 => []
  | ids, k + 1 => ids.take.1 :: upcoming ids.take.2 k

theorem upcoming_eq (ids : IdSource) (k : Nat) :
    ids.upcoming k = (List.range k).map fun i => ids.next + UInt64.ofNat i := by
  induction k generalizing ids with
  | zero => rfl
  | succ k ih =>
    have hshift : ∀ i, ids.next + 1 + UInt64.ofNat i = ids.next + UInt64.ofNat (i + 1) := by
      intro i
      rw [UInt64.add_assoc, UInt64.add_comm 1, UInt64.ofNat_add]
      rfl
    rw [upcoming, ih, List.range_succ_eq_map, List.map_cons, List.map_map]
    simp [take, hshift, Function.comp_def]

theorem mem_upcoming : raw ∈ ids.upcoming k ↔ ∃ i, i < k ∧ raw = ids.next + UInt64.ofNat i := by
  simp only [upcoming_eq, List.mem_map, List.mem_range, eq_comm]

theorem upcoming_mono (hkm : k ≤ m) (h : raw ∈ ids.upcoming k) : raw ∈ ids.upcoming m := by
  obtain ⟨i, hi, rfl⟩ := mem_upcoming.1 h
  exact mem_upcoming.2 ⟨i, Nat.lt_of_lt_of_le hi hkm, rfl⟩

/-- those after the first `k` -/
theorem upcoming_add (ids : IdSource) (k m : Nat) :
    ids.upcoming (k + m) = ids.upcoming k ++ upcoming ⟨ids.next + UInt64.ofNat k⟩ m := by
  simp only [upcoming_eq, List.range_add, List.map_append, List.map_map, Function.comp_def, UInt64.ofNat_add,
    UInt64.add_assoc]

/-- they differ as long as the counter does not come round to the first one -/
theorem nodup_upcoming (h : k ≤ 2 ^ 64) : (ids.upcoming k).Nodup := by
  rw [upcoming_eq]
  refine List.Nodup.map_on (fun i hi j hj hij => ?_) List.nodup_range
  rw [List.mem_range] at hi hj
  have := toNat_offset ids.next (k := i) (by omega)
  rwa [hij, toNat_offset ids.next (by omega), eq_comm] at this

end IdSource

/-! ## Edits that are made of others -/

namespace TypeDef

variable {known : TypeId → Prop} {d d' : TypeDef}

/-- a blank definition mentions what its body does -/
theorem mentions_blank {l : Label} {body : TypeBody} {x : TypeId} : (blank l body).Mentions x ↔
    (blank l body).relatesRole x ∨ (blank l body).implicitFor? = some x := by
  refine ⟨fun hx => ?_, fun hx => hx.imp_left fun hx => Or.inr (Or.inl hx)⟩
  rcases hx with (hx | hx | hx) | hx
  · exact absurd hx not_mem_blank_plays
  · exact Or.inl hx
  · exact absurd hx not_mem_blank_owns
  · exact Or.inr hx

theorem Evolves.of_sameRefs (h : d.SameRefs d') : d.Evolves known d' where
  kind := h.kind
  implicitFor := h.implicitFor
  mentions x hx := by
    rcases hx with hx | hx | hx
    · exact Or.inl (Or.inl ((h.plays x).1 hx))
    · exact Or.inl (Or.inr (Or.inl ((h.relates x).1 hx)))
    · exact Or.inl (Or.inr (Or.inr ((h.owns x).1 hx)))

/-- other roles to play and attribute types to own -/
theorem Evolves.of_declared {plays : ExtTreeSet TypeId} {owns : ExtTreeMap TypeId Ownership}
    (hp : ∀ x ∈ plays, x ∈ d.plays ∨ known x) (ho : ∀ x ∈ owns, x ∈ d.owns ∨ known x) :
    d.Evolves known { d with plays := plays, owns := owns } where
  kind := rfl
  implicitFor := rfl
  mentions x hx := by
    rcases hx with hx | hx | hx
    · exact (hp x hx).imp_left Or.inl
    · exact Or.inl (Or.inr (Or.inl hx))
    · exact (ho x hx).imp_left fun hx => Or.inr (Or.inr hx)

/-- other roles to relate -/
theorem Evolves.of_changeRelates {f : ExtTreeSet TypeId → ExtTreeSet TypeId}
    (hr : ∀ x, (d.changeRelates f).relatesRole x → d.relatesRole x ∨ known x) :
    d.Evolves known (d.changeRelates f) := by
  obtain ⟨-, hkind, hfor, -, hplays, howns, -⟩ := d.changeRelates_other f
  refine ⟨hkind, hfor, fun x hx => ?_⟩
  rcases hx with hx | hx | hx
  · exact Or.inl (Or.inl (hplays ▸ hx))
  · exact (hr x hx).imp_left fun hx => Or.inr (Or.inl hx)
  · exact Or.inl (Or.inr (Or.inr (howns ▸ hx)))

theorem Evolves.of_withdraw (t : TypeId) (record : Option ImplicitOwnership) (d : TypeDef) :
    d.Evolves known (Transaction.withdraw t record d) where
  kind := Schema.kind_withdraw
  implicitFor := Schema.implicitFor?_withdraw
  mentions x hx := by
    rcases hx with hx | hx | hx
    · exact Or.inl (Or.inl (Schema.mem_plays_withdraw.1 hx).1)
    · exact Or.inl (Or.inr (Or.inl (Schema.relatesRole_withdraw.1 hx).1))
    · exact Or.inl (Or.inr (Or.inr (Schema.mem_owns_withdraw.1 hx).1))

end TypeDef

namespace Schema

variable {new known : TypeId → Prop} {s s' : Schema} {t : TypeId} {l : Label} {r : ImplicitOwnership}

/-- to make a record is to put in its three types, let the attribute type play its role, and register the record -/
theorem edits_insertImplicit (h : Transaction.insertImplicit s r l = .ok s') (hnew : ∀ x, r.Made x → new x)
    (hknown : ∀ x ∈ r.toList, known x) : Relation.ReflTransGen (SchemaEdit new known) s s' := by
  obtain ⟨s₁, s₂, s₃, d, h₁, h₂, h₃, hd, rfl⟩ := insertImplicit_eq_ok.1 h
  have hrole : ∀ {l : Label} {x}, (TypeDef.blank l .role).Mentions x → known x := by
    intro l x hx
    rw [TypeDef.mentions_blank] at hx
    simp [TypeDef.relatesRole, TypeDef.relates?, TypeDef.implicitFor?, TypeDef.blank] at hx
  have hrelation : ∀ x, (r.relationDef l).Mentions x → known x := by
    intro x hx
    rcases TypeDef.mentions_blank.1 hx with hx | hx
    · rcases (r.relatesRole_relationDef l x).1 hx with rfl | rfl
      · exact hknown _ (by simp [ImplicitOwnership.toList])
      · exact hknown _ (by simp [ImplicitOwnership.toList])
    · exact Option.some.inj hx ▸ hknown r.owned (by simp [ImplicitOwnership.toList])
  have hplays : d.Evolves known { d with plays := d.plays.insert r.valueRole } :=
    .of_declared (fun x hx => (mem_set_insert.1 hx).symm.imp_right fun (heq : x = _) =>
      heq ▸ hknown _ (by simp [ImplicitOwnership.toList])) fun _ => Or.inl
  exact ((((Relation.ReflTransGen.single (.insert h₁ (hnew _ (by simp [ImplicitOwnership.Made])) fun _ => hrole)).tail
    (.insert h₂ (hnew _ (by simp [ImplicitOwnership.Made])) fun _ => hrole)).tail
    (.insert h₃ (hnew _ (by simp [ImplicitOwnership.Made])) hrelation)).tail (.redefine hd hplays)).tail
    (.register hknown)

/-- labels are changed one by one -/
theorem edits_relabelAll (h : Transaction.relabelAll s t l = .ok s') :
    Relation.ReflTransGen (SchemaEdit new known) s s' := by
  cases hrec : s.implicitForOwned? t with
  | none => exact .single (.relabel ((relabelAll_of_none hrec).1 h))
  | some r =>
    obtain ⟨s₁, s₂, s₃, h₁, h₂, h₃, h₄⟩ := (relabelAll_of_some hrec).1 h
    exact (((Relation.ReflTransGen.single (.relabel h₁)).tail (.relabel h₂)).tail (.relabel h₃)).tail (.relabel h₄)

/-- to delete an element is to forget the record, to withdraw all declarations, and to take out its types -/
theorem edits_removeAll (h : Transaction.removeAll s t = .ok s') :
    Relation.ReflTransGen (SchemaEdit new known) s s' := by
  have hwithdrawn : ∀ record, Relation.ReflTransGen (SchemaEdit new known) s
      ((s.unregisterImplicit t).redefineAll (Transaction.withdraw t record)) := fun record =>
    (Relation.ReflTransGen.single .unregister).tail (.redefineAll fun d => .of_withdraw t record d)
  unfold Transaction.removeAll at h
  cases hrec : s.implicitForOwned? t with
  | none =>
    simp only [hrec, bind_eq_ok, pure_eq_ok] at h
    obtain ⟨_, rfl, ⟨d, s₁⟩, h₁, rfl⟩ := h
    exact (hwithdrawn _).tail (.remove h₁)
  | some r =>
    simp only [hrec, bind_eq_ok, pure_eq_ok] at h
    obtain ⟨⟨d₁, s₁⟩, h₁, ⟨d₂, s₂⟩, h₂, ⟨d₃, s₃⟩, h₃, _, rfl, ⟨d₄, s₄⟩, h₄, rfl⟩ := h
    exact ((((hwithdrawn _).tail (.remove h₁)).tail (.remove h₂)).tail (.remove h₃)).tail (.remove h₄)

end Schema

namespace Transaction

variable {α β : Type} {R : Nat → State → State → Prop} {K : Mention → Prop} {t t₀ : Transaction} {k : Nat}
  {op : Operation}

/-! ## Transactions reached by edits -/

/-- one edit of the schema, if `k` identifiers have been drawn. What is put in has been drawn, and what is referred to
has been drawn or is `K`. -/
def SchemaEdits (K : Mention → Prop) (ids : IdSource) (k : Nat) (x y : State) : Prop :=
  ∃ schema', SchemaEdit (fun t => t.raw ∈ ids.upcoming k) (fun t => K (.type t) ∨ t.raw ∈ ids.upcoming k)
    x.schema schema' ∧ y = { x with schema := schema' }

/-- one edit of the graph, in the same way -/
def GraphEdits (K : Mention → Prop) (ids : IdSource) (k : Nat) (x y : State) : Prop :=
  ∃ graph', GraphEdit (fun id => id.raw ∈ ids.upcoming k) (fun t => K (.type t)) x.graph graph' ∧
    y = { x with graph := graph' }

theorem schemaEdits_mono (x y : State) (h : SchemaEdits K t₀.ids k x y) : SchemaEdits K t₀.ids (k + 1) x y := by
  have hmono : ∀ {raw}, raw ∈ t₀.ids.upcoming k → raw ∈ t₀.ids.upcoming (k + 1) :=
    fun hraw => IdSource.upcoming_mono (Nat.le_succ k) hraw
  obtain ⟨schema', hedit, hy⟩ := h
  exact ⟨schema', hedit.mono (fun _ => hmono) (fun _ => Or.imp_right hmono), hy⟩

theorem graphEdits_mono (x y : State) (h : GraphEdits K t₀.ids k x y) : GraphEdits K t₀.ids (k + 1) x y := by
  obtain ⟨graph', hedit, hy⟩ := h
  exact ⟨graph', hedit.mono (fun _ hraw => IdSource.upcoming_mono (Nat.le_succ k) hraw) fun _ hx => hx, hy⟩

/-- `t` comes from `t₀` by edits of the working state, with `k` identifiers drawn, three at most -/
structure Reached (R : Nat → State → State → Prop) (t₀ : Transaction) (k : Nat) (t : Transaction) : Prop where
  ids : t.ids.next = t₀.ids.next + UInt64.ofNat k
  few : k ≤ 3
  path : Relation.ReflTransGen (R k) t₀.working t.working

namespace Reached

theorem refl (R : Nat → State → State → Prop) (t : Transaction) : Reached R t 0 t :=
  ⟨(UInt64.add_zero _).symm, Nat.zero_le 3, .refl⟩

theorem record (h : Reached R t₀ k t) (ms : List Mutation) : Reached R t₀ k { t with mutations := ms } :=
  ⟨h.ids, h.few, h.path⟩

/-- one more identifier, which is the next one -/
theorem draw (h : Reached R t₀ k t) (hk : k < 3) (hR : ∀ x y, R k x y → R (k + 1) x y) :
    Reached R t₀ (k + 1) { t with ids := ⟨t.ids.next + 1⟩ } ∧ t.ids.next ∈ t₀.ids.upcoming (k + 1) := by
  refine ⟨⟨?_, hk, Relation.ReflTransGen.mono hR _ _ h.path⟩, IdSource.mem_upcoming.2 ⟨k, Nat.lt_succ_self k, h.ids⟩⟩
  rw [h.ids]
  exact next_offset _ _

theorem edit (h : Reached R t₀ k t) {x : State} (hx : R k t.working x) :
    Reached R t₀ k { t with working := x } := ⟨h.ids, h.few, h.path.tail hx⟩

theorem withSchema {schema' : Schema} (h : Reached (SchemaEdits K t₀.ids) t₀ k t)
    (hs : Relation.ReflTransGen (SchemaEdit (fun x => x.raw ∈ t₀.ids.upcoming k)
      (fun x => K (.type x) ∨ x.raw ∈ t₀.ids.upcoming k)) t.working.schema schema') :
    Reached (SchemaEdits K t₀.ids) t₀ k (t.withSchema schema') := by
  refine ⟨h.ids, h.few, h.path.trans ?_⟩
  show Relation.ReflTransGen _ t.working { t.working with schema := schema' }
  induction hs with
  | refl => exact .refl
  | tail _ hedit ih => exact ih.tail ⟨_, hedit, rfl⟩

theorem withGraph {graph' : Graph} (h : Reached (GraphEdits K t₀.ids) t₀ k t)
    (hg : GraphEdit (fun id => id.raw ∈ t₀.ids.upcoming k) (fun x => K (.type x)) t.working.graph graph') :
    Reached (GraphEdits K t₀.ids) t₀ k (t.withGraph graph') := h.edit ⟨graph', hg, rfl⟩

end Reached

/-! ## Edits that lead there -/

/-- whatever comes of the edit, the transaction then comes from `t₀` by edits -/
def Reaches (R : Nat → State → State → Prop) (t₀ : Transaction) (e : Edit α) (t : Transaction) : Prop :=
  ∃ k, Reached R t₀ k (outcome e t).2

namespace Reaches

variable {c : β → Edit α}

theorem pure {a : α} (h : Reached R t₀ k t) : Reaches R t₀ (pure a) t := ⟨k, h⟩

theorem throw {err : ConceptError} (h : Reached R t₀ k t) : Reaches R t₀ (throw err : Edit α) t := ⟨k, h⟩

theorem ask {f : State → Except ConceptError β} (h : Reached R t₀ k t)
    (hc : ∀ b, f t.working = .ok b → Reaches R t₀ (c b) t) : Reaches R t₀ (ask f >>= c) t := by
  unfold Reaches
  rw [outcome_bind, outcome_ask]
  cases hf : f t.working with
  | error err => exact ⟨k, h⟩
  | ok b => exact hc b hf

theorem look {f : State → β} (hc : Reaches R t₀ (c (f t.working)) t) : Reaches R t₀ (look f >>= c) t := hc

theorem get {c : Transaction → Edit α} (hc : Reaches R t₀ (c t) t) : Reaches R t₀ (get >>= c) t := hc

theorem newType {c : TypeId → Edit α} (hc : Reaches R t₀ (c ⟨t.ids.next⟩) { t with ids := ⟨t.ids.next + 1⟩ }) :
    Reaches R t₀ (newType >>= c) t := hc

theorem newThing {c : ThingId → Edit α} (hc : Reaches R t₀ (c ⟨t.ids.next⟩) { t with ids := ⟨t.ids.next + 1⟩ }) :
    Reaches R t₀ (newThing >>= c) t := hc

theorem record {m : Mutation} {c : Unit → Edit α}
    (hc : Reaches R t₀ (c ()) { t with mutations := t.mutations ++ [m] }) : Reaches R t₀ (record m >>= c) t := hc

theorem record_last {m : Mutation} (h : Reached R t₀ k t) : Reaches R t₀ (Transaction.record m) t := ⟨k, h.record _⟩

theorem editSchema {f : Schema → Except ConceptError Schema} {c : Unit → Edit α} (h : Reached R t₀ k t)
    (hc : ∀ schema', f t.working.schema = .ok schema' → Reaches R t₀ (c ()) (t.withSchema schema')) :
    Reaches R t₀ (editSchema f >>= c) t := by
  unfold Reaches
  rw [outcome_bind, outcome_editSchema]
  cases hf : f t.working.schema with
  | error err => exact ⟨k, h⟩
  | ok schema' => exact hc schema' hf

theorem editGraph {f : Graph → Except ConceptError (β × Graph)} (h : Reached R t₀ k t)
    (hc : ∀ b graph', f t.working.graph = .ok (b, graph') → Reaches R t₀ (c b) (t.withGraph graph')) :
    Reaches R t₀ (editGraph f >>= c) t := by
  unfold Reaches
  rw [outcome_bind, outcome_editGraph]
  cases hf : f t.working.graph with
  | error err => exact ⟨k, h⟩
  | ok b => exact hc b.1 b.2 hf

theorem map {f : β → α} {e : Edit β} (h : Reaches R t₀ e t) : Reaches R t₀ (f <$> e) t := by
  unfold Reaches
  rwa [outcome_map]

/-- what is done only where something is not yet as wanted -/
theorem when {p : Prop} [Decidable p] {e : Edit Unit} (h : Reached R t₀ k t) (he : Reaches R t₀ e t) :
    Reaches R t₀ (if p then e else Pure.pure ()) t := by
  split
  · exact he
  · exact .pure h

/-- an edit of one definition that keeps what it is, and its mutation -/
theorem changed {a : TypeId} {f : TypeDef → TypeDef} {m : Mutation} (h : Reached (SchemaEdits K t₀.ids) t₀ k t)
    (hf : ∀ d, t.working.schema.get? a = some d →
      d.Evolves (fun x => K (.type x) ∨ x.raw ∈ t₀.ids.upcoming k) (f d)) :
    Reaches (SchemaEdits K t₀.ids) t₀ (Transaction.editSchema (fun schema => schema.change a f) >>=
      fun _ => Transaction.record m) t := by
  refine .editSchema h fun schema' hc => ?_
  obtain ⟨d, hd, rfl⟩ := Schema.change_eq_ok.1 hc
  exact .record_last (h.withSchema (.single (.redefine hd (hf d hd))))

/-- one instance less, and then another edit -/
theorem removeThing {id : ThingId} {c : Unit → Edit α} (h : Reached (GraphEdits K t₀.ids) t₀ k t)
    (hc : ∀ u, Reached (GraphEdits K t₀.ids) t₀ k u → Reaches (GraphEdits K t₀.ids) t₀ (c ()) u) :
    Reaches (GraphEdits K t₀.ids) t₀ (Transaction.removeThing id >>= c) t := by
  rw [Transaction.removeThing, bind_assoc]
  exact .editGraph h fun _ _ hrm => hc _ (h.withGraph (.remove hrm))

theorem removeThings {edges : List OwnershipEdge} {c : Unit → Edit α} (h : Reached (GraphEdits K t₀.ids) t₀ k t)
    (hc : ∀ u, Reached (GraphEdits K t₀.ids) t₀ k u → Reaches (GraphEdits K t₀.ids) t₀ (c ()) u) :
    Reaches (GraphEdits K t₀.ids) t₀ ((edges.forM fun e => Transaction.removeThing e.relation) >>= c) t := by
  induction edges generalizing t with
  | nil => exact hc t h
  | cons e edges ih =>
    show Reaches _ t₀ ((Transaction.removeThing e.relation >>= fun _ => _) >>= c) t
    rw [bind_assoc]
    exact .removeThing h fun u hu => ih hu

end Reaches

/-! ## Operations on types -/

section Types

variable {owned : TypeId}

theorem reaches_putType (l : Label) {body : TypeBody} (hno : ∀ x, ¬ (TypeDef.blank l body).Mentions x) :
    Reaches (SchemaEdits K t.ids) t (putType l body) t := by
  have h := Reached.refl (SchemaEdits K t.ids) t
  refine .ask h fun found _ => ?_
  cases found with
  | some x => exact .pure h
  | none =>
    refine .look (.get (.ask h fun _ _ => .newType ?_))
    obtain ⟨hdrawn, hmem⟩ := h.draw (by decide) schemaEdits_mono
    refine .editSchema hdrawn fun schema' hs' => .record ?_
    have hdone := hdrawn.withSchema (.single (.insert hs' hmem fun x hx => absurd hx (hno x)))
    dsimp only
    split
    · exact .record (.pure ((hdone.record _).record _))
    · exact .pure (hdone.record _)

theorem reaches_setDataType (a : TypeId) (v : DataType) : Reaches (SchemaEdits K t.ids) t (setDataType a v) t :=
  have h := Reached.refl (SchemaEdits K t.ids) t
  .ask h fun _ _ => .ask h fun _ _ => .when h (.changed h fun d _ => .of_sameRefs (d.setDataType_sameRefs (some v)))

theorem reaches_putAttributeType (l : Label) (dataType : Option DataType) :
    Reaches (SchemaEdits K t.ids) t (putAttributeType l dataType) t := by
  have h := Reached.refl (SchemaEdits K t.ids) t
  have hno : ∀ x, ¬ (TypeDef.blank l (.attribute dataType none)).Mentions x := by
    intro x
    rw [TypeDef.mentions_blank]
    simp [TypeDef.relatesRole, TypeDef.relates?, TypeDef.implicitFor?, TypeDef.blank]
  refine .ask h fun found _ => ?_
  cases found with
  | none => exact reaches_putType l hno
  | some x =>
    cases dataType with
    | none => exact .pure h
    | some v =>
      refine .look ?_
      split
      · have hset := (reaches_setDataType (K := K) (t := t) x v).map (f := fun _ => x)
        rwa [map_eq_pure_bind] at hset
      · exact .pure h

theorem reaches_setSupertype (a p : TypeId) : Reaches (SchemaEdits K t.ids) t (setSupertype a p) t := by
  have h := Reached.refl (SchemaEdits K t.ids) t
  refine .ask h fun _ _ => .look (.when h (.editSchema h fun schema' hm => ?_))
  simp only [bind_eq_ok, pure_eq_ok] at hm
  obtain ⟨⟨old, moved⟩, hm, rfl⟩ := hm
  exact .record_last (h.withSchema (.single (.reparent hm)))

/-- a declaration of ownership, for which a record is made if there is none -/
theorem reaches_declareOwnership (hK : t.working.MentionsOnly K) (a : TypeId) (howned : K (.type owned))
    (ownership : Ownership) (m : Mutation) :
    Reaches (SchemaEdits K t.ids) t (declareOwnership a owned ownership >>= fun _ => record m) t := by
  have h := Reached.refl (SchemaEdits K t.ids) t
  -- the declaration itself, whether the record is an old one or has just been made
  have hdeclare : ∀ {k u} {r : ImplicitOwnership}, Reached (SchemaEdits K t.ids) t k u →
      (K (.type r.ownerRole) ∨ r.ownerRole.raw ∈ t.ids.upcoming k) →
      Reaches (SchemaEdits K t.ids) t (editSchema (fun schema => schema.change a fun d =>
        { d with plays := d.plays.insert r.ownerRole, owns := d.owns.insert owned ownership }) >>=
          fun _ => record m) u := by
    intro k u r hu hr
    refine .changed hu fun d _ => .of_declared (fun x hx => ?_) fun x hx => ?_
    · rcases mem_set_insert.1 hx with rfl | hx
      · exact Or.inr hr
      · exact Or.inl hx
    · rcases ExtTreeMap.mem_insert.1 hx with heq | hx
      · exact Or.inr (Or.inl (compare_iff.1 heq ▸ howned))
      · exact Or.inl hx
  simp only [declareOwnership, ensureImplicit, bind_assoc]
  refine .look ?_
  cases hrec : t.working.schema.implicitForOwned? owned with
  | some r =>
    exact hdeclare h (Or.inl ((hK.schema.byOwned owned r hrec).2 _ (by simp [ImplicitOwnership.toList])))
  | none =>
    simp only [bind_assoc]
    refine .ask h fun d _ => .newType (.newType (.newType ?_))
    obtain ⟨h₁, hrelation⟩ := h.draw (by decide) schemaEdits_mono
    obtain ⟨h₂, howner⟩ := h₁.draw (by decide) schemaEdits_mono
    obtain ⟨h₃, hvalue⟩ := h₂.draw (by decide) schemaEdits_mono
    have hrelation := IdSource.upcoming_mono (m := 3) (by decide) hrelation
    have howner := IdSource.upcoming_mono (m := 3) (by decide) howner
    refine .editSchema h₃ fun schema' hs' => ?_
    refine hdeclare (h₃.withSchema (Schema.edits_insertImplicit hs' (fun x hx => ?_) fun x hx => ?_)) (Or.inr howner)
    · rcases hx with rfl | rfl | rfl
      · exact hrelation
      · exact howner
      · exact hvalue
    · simp only [ImplicitOwnership.toList, List.mem_cons, List.not_mem_nil, or_false] at hx
      rcases hx with rfl | rfl | rfl | rfl
      · exact Or.inl howned
      · exact Or.inr hrelation
      · exact Or.inr howner
      · exact Or.inr hvalue

/-- **Any operation on types** edits the schema step by step, whatever comes of it. -/
theorem reaches_schema (hK : t.working.MentionsOnly K) (hop : op.editsSchema) :
    Reaches (SchemaEdits K t.ids) t op.perform t := by
  have h := Reached.refl (SchemaEdits K t.ids) t
  have hdefined : ∀ {a kind d}, t.working.editable a kind = .ok d → K (.type a) := fun ha =>
    hK.schema.element _ _ (State.editable_eq_ok.1 ha).1.1
  have hblank : ∀ {l : Label} {body : TypeBody}, body = .entity ∨ body = .relation ∅ none ∨ body = .role →
      ∀ x, ¬ (TypeDef.blank l body).Mentions x := by
    rintro l body (rfl | rfl | rfl) x <;> rw [TypeDef.mentions_blank] <;>
      simp [TypeDef.relatesRole, TypeDef.relates?, TypeDef.implicitFor?, TypeDef.blank]
  cases op with
  | putEntityType l => exact (reaches_putType l (hblank (Or.inl rfl))).map
  | putRelationType l => exact (reaches_putType l (hblank (Or.inr (Or.inl rfl)))).map
  | putRole l => exact (reaches_putType l (hblank (Or.inr (Or.inr rfl)))).map
  | putAttributeType l dataType => exact (reaches_putAttributeType l dataType).map
  | setSupertype a p => exact (reaches_setSupertype a p).map
  | setLabel a l =>
    exact .map (.get (.ask h fun _ _ => .ask h fun _ _ => .when h (.editSchema h fun _ hr =>
      .record_last (h.withSchema (Schema.edits_relabelAll hr)))))
  | setAbstract a isAbstract =>
    exact .map (.ask h fun _ _ => .ask h fun _ _ => .when h (.changed h fun d _ => ⟨rfl, rfl, fun _ => Or.inl⟩))
  | deleteType a =>
    exact .map (.ask h fun _ _ => .editSchema h fun _ hr => .record_last (h.withSchema (Schema.edits_removeAll hr)))
  | setDataType a v => exact (reaches_setDataType a v).map
  | setRegex a source =>
    exact .map (.ask h fun p _ => .changed h fun d _ => .of_sameRefs (d.setRegex_sameRefs (some p)))
  | unsetRegex a =>
    exact .map (.ask h fun _ _ => .ask h fun _ _ => .when h (.changed h fun d _ =>
      .of_sameRefs (d.setRegex_sameRefs none)))
  | plays a role =>
    refine .map (.ask h fun _ hc => .ask h fun _ _ => .when h (.changed h fun d _ =>
      .of_declared (fun x hx => ?_) fun _ => Or.inl))
    simp only [State.checkPlays, bind_eq_ok] at hc
    obtain ⟨_, -, _, hrole, -⟩ := hc
    exact (mem_set_insert.1 hx).symm.imp_right fun (heq : x = role) => Or.inl (heq ▸ hdefined hrole)
  | unplay a role =>
    exact .map (.ask h fun _ _ => .ask h fun _ _ => .when h (.changed h fun d _ =>
      .of_declared (fun x hx => Or.inl (mem_set_erase.1 hx).2) fun _ => Or.inl))
  | relates a role =>
    refine .map (.ask h fun _ hc => .ask h fun _ _ => .when h (.changed h fun d hd => .of_changeRelates fun x hx => ?_))
    simp only [State.checkRelates, bind_eq_ok, State.editable_eq_ok] at hc
    obtain ⟨e, ⟨he, hk⟩, f, hrole, -⟩ := hc
    obtain rfl := Option.some.inj (hd.symm.trans he.1)
    exact ((TypeDef.relatesRole_insert hk role x).1 hx).symm.imp_right fun (heq : x = role) =>
      Or.inl (heq ▸ hdefined (State.editable_eq_ok.2 hrole))
  | unrelate a role =>
    exact .map (.ask h fun _ _ => .ask h fun _ _ => .when h (.changed h fun d _ =>
      .of_changeRelates fun x hx => Or.inl ((d.relatesRole_erase role x).1 hx).1))
  | has a owned =>
    refine .map (.ask h fun _ hc => .ask h fun _ _ => .when h (reaches_declareOwnership hK a ?_ .has _))
    simp only [State.checkHas, bind_eq_ok] at hc
    obtain ⟨_, -, _, howned, -⟩ := hc
    exact hdefined howned
  | key a owned =>
    refine .map (.ask h fun _ hc => .ask h fun _ _ => .when h (reaches_declareOwnership hK a ?_ .key _))
    simp only [State.checkKey, bind_eq_ok] at hc
    obtain ⟨_, -, _, howned, -⟩ := hc
    exact hdefined howned
  | unhas a owned =>
    refine .map (.ask h fun _ _ => .look (.ask h fun _ _ => .when h (.changed h fun d _ =>
      .of_declared (fun x hx => Or.inl ?_) fun x hx => Or.inl (ExtTreeMap.mem_of_mem_erase hx))))
    split at hx
    · exact (mem_set_erase.1 hx).2
    · exact hx
  | unkey a owned =>
    refine .map (.ask h fun _ hc => .ask h fun _ _ => .when h (.changed h fun d _ =>
      .of_declared (fun _ => Or.inl) fun x hx => ?_))
    simp only [State.checkHas, bind_eq_ok] at hc
    obtain ⟨_, -, _, howned, -⟩ := hc
    rcases ExtTreeMap.mem_insert.1 hx with heq | hx
    · exact Or.inr (Or.inl (compare_iff.1 heq ▸ hdefined howned))
    · exact Or.inl hx
  | _ => cases hop

end Types

/-! ## Operations on instances -/

section Instances

variable {a : TypeId} {m : ThingId → Mutation}

/-- a new instance of a type that is there, and its mutation -/
theorem reaches_make (ha : K (.type a)) {body : ThingBody} (hno : (⟨a, body⟩ : Thing).rolePlayers = []) :
    Reaches (GraphEdits K t.ids) t (do
      let id ← newThing
      let _ ← editGraph fun g => pure (g.insert id ⟨a, body⟩)
      record (m id)
      pure id) t := by
  refine .newThing ?_
  obtain ⟨h, hmem⟩ := (Reached.refl (GraphEdits K t.ids) t).draw (by decide) graphEdits_mono
  refine .editGraph h fun _ graph' hins => .record ?_
  obtain rfl : (t.working.graph.insert ⟨t.ids.next⟩ ⟨a, body⟩).2 = graph' := congrArg Prod.snd (Except.ok.inj hins)
  exact .pure ((h.withGraph (.insert hmem ha hno)).record _)

theorem reaches_create (hK : t.working.MentionsOnly K) (a : TypeId) (kind : Kind) {body : ThingBody}
    (hno : (⟨a, body⟩ : Thing).rolePlayers = []) : Reaches (GraphEdits K t.ids) t (create a kind body) t := by
  refine .ask (Reached.refl _ t) fun _ hc => reaches_make ?_ hno
  simp only [State.checkCreate, bind_eq_ok, Schema.requireKind_eq_ok] at hc
  obtain ⟨d, ⟨hd, -⟩, -⟩ := hc
  exact hK.schema.element a d hd

theorem reaches_putAttribute (hK : t.working.MentionsOnly K) (a : TypeId) (v : Value) :
    Reaches (GraphEdits K t.ids) t (putAttribute a v) t := by
  have h := Reached.refl (GraphEdits K t.ids) t
  refine .ask h fun _ hc => .look ?_
  simp only [State.checkPutAttribute, bind_eq_ok, Schema.requireKind_eq_ok] at hc
  obtain ⟨d, ⟨hd, -⟩, -⟩ := hc
  split
  · exact .pure h
  · exact reaches_make (hK.schema.element a d hd) rfl

/-- the relation that records that an attribute is held gets its two players -/
theorem reaches_setHas (hK : t.working.MentionsOnly K) (o x : ThingId) :
    Reaches (GraphEdits K t.ids) t (setHas o x) t := by
  have h := Reached.refl (GraphEdits K t.ids) t
  refine .ask h fun decl _ => .look ?_
  split
  · exact .pure h
  · refine .look ?_
    split
    · exact .throw h
    · rename_i r hr
      have hknown : ∀ y ∈ r.toList, K (.type y) := (hK.schema.byOwned _ r hr).2
      refine .newThing ?_
      obtain ⟨h₁, hmem⟩ := h.draw (by decide) graphEdits_mono
      refine .editGraph h₁ fun _ graph₁ hins => ?_
      obtain rfl : (t.working.graph.insert ⟨t.ids.next⟩ ⟨r.relation, .relation ∅⟩).2 = graph₁ :=
        congrArg Prod.snd (Except.ok.inj hins)
      have hinsert : GraphEdit (fun id => id.raw ∈ t.ids.upcoming 1) (fun y => K (.type y)) t.working.graph
          (t.working.graph.insert ⟨t.ids.next⟩ ⟨r.relation, .relation ∅⟩).2 :=
        .insert hmem (hknown _ (by simp [ImplicitOwnership.toList])) rfl
      have h₂ := h₁.withGraph hinsert
      refine .editGraph h₂ fun _ graph₂ howner => ?_
      have h₃ := h₂.withGraph (.addRolePlayer howner (hknown _ (by simp [ImplicitOwnership.toList])))
      refine .editGraph h₃ fun _ graph₃ hvalue => ?_
      have h₄ := h₃.withGraph (.addRolePlayer hvalue (hknown _ (by simp [ImplicitOwnership.toList])))
      exact .record (.pure (h₄.record _))

/-- **Any operation on instances** edits the graph step by step, whatever comes of it. -/
theorem reaches_graph (hK : t.working.MentionsOnly K) (hop : op.editsGraph) :
    Reaches (GraphEdits K t.ids) t op.perform t := by
  have h := Reached.refl (GraphEdits K t.ids) t
  cases op with
  | createEntity a => exact (reaches_create hK a .entity rfl).map
  | createRelation a => exact (reaches_create hK a .relation rfl).map
  | putAttribute a v => exact (reaches_putAttribute hK a v).map
  | addRolePlayer r role p =>
    refine .map (.ask h fun _ hc => .editGraph h fun _ _ hadd => ?_)
    simp only [State.checkAddRolePlayer, bind_eq_ok, Schema.requireKind_eq_ok] at hc
    obtain ⟨-, -, d, ⟨hd, -⟩, -⟩ := hc
    have hdone := h.withGraph (.addRolePlayer hadd (hK.schema.element role d hd))
    exact .when hdone (.record_last hdone)
  | removeRolePlayer r role p =>
    refine .map (.ask h fun _ _ => .editGraph h fun _ _ hrm => ?_)
    have hdone := h.withGraph (.removeRolePlayer hrm)
    split
    · exact .record (.pure (hdone.record _))
    · exact .pure hdone
  | setHas o x => exact (reaches_setHas hK o x).map
  | unsetHas o x =>
    refine .map (.ask h fun _ _ => .ask h fun _ _ => .look ?_)
    split
    · exact .pure h
    · exact .removeThing h fun u hu => .record (.pure (hu.record _))
  | deleteThing id =>
    exact .map (.ask h fun _ _ => .look (.removeThings h fun u hu => .removeThing hu fun u hu => .record_last hu))
  | _ => cases hop

end Instances

/-! ## What operations lead to -/

/-- what edits of the schema make of a state, if they put in nothing but `raws` -/
structure SchemaEdited (K : Mention → Prop) (raws : List UInt64) (x y : State) : Prop where
  graph : y.graph = x.graph
  forests : ∀ b, (y.schema.forest b).Forest
  mentions : y.MentionsOnly fun m => K m ∨ ∃ a : TypeId, m = .type a ∧ a.raw ∈ raws
  element : ∀ a d, y.schema.get? a = some d → a.raw ∈ raws ∨
    ∃ e, x.schema.get? a = some e ∧ d.kind = e.kind ∧ d.implicitFor? = e.implicitFor?

/-- what edits of the graph make of a state, if they put in nothing but `raws` -/
structure GraphEdited (K : Mention → Prop) (raws : List UInt64) (x y : State) : Prop where
  schema : y.schema = x.schema
  mentions : y.MentionsOnly fun m => K m ∨ ∃ id : ThingId, m = .thing id ∧ id.raw ∈ raws
  thing : ∀ id b, y.graph.bare? id = some b → id.raw ∈ raws ∨ x.graph.bare? id = some b

theorem Reached.schemaEdited (h : Reached (SchemaEdits K t₀.ids) t₀ k t)
    (hf : ∀ b, (t₀.working.schema.forest b).Forest) (hK : t₀.working.MentionsOnly K) :
    SchemaEdited K (t₀.ids.upcoming k) t₀.working t.working := by
  have hpath := h.path
  generalize t.working = y at hpath ⊢
  induction hpath with
  | refl => exact ⟨rfl, hf, hK.imp fun _ => Or.inl, fun a d hd => Or.inr ⟨d, hd, rfl, rfl⟩⟩
  | tail _ hedit ih =>
    obtain ⟨schema', hedit, rfl⟩ := hedit
    have hdrawn : ∀ {a : TypeId}, a.raw ∈ t₀.ids.upcoming k → K (.type a) ∨
        ∃ b : TypeId, Mention.type a = .type b ∧ b.raw ∈ t₀.ids.upcoming k := fun ha => Or.inr ⟨_, rfl, ha⟩
    have hmentions := (hedit.mono (fun _ ha => ha) fun _ ha => ha.elim Or.inl hdrawn).mentionsOnly ih.forests
      ih.mentions.schema fun _ => hdrawn
    refine ⟨ih.graph, (hedit.forests ih.forests).1, ⟨hmentions, ih.mentions.graph⟩, fun a d hd => ?_⟩
    rcases hedit.element hd with ⟨hnew, -⟩ | ⟨e, he, hevolves⟩
    · exact Or.inl hnew
    · exact (ih.element a e he).imp_right fun ⟨e', he', hkind, hfor⟩ =>
        ⟨e', he', hevolves.kind.trans hkind, hevolves.implicitFor.trans hfor⟩

theorem Reached.graphEdited (h : Reached (GraphEdits K t₀.ids) t₀ k t) (hK : t₀.working.MentionsOnly K) :
    GraphEdited K (t₀.ids.upcoming k) t₀.working t.working := by
  have hpath := h.path
  generalize t.working = y at hpath ⊢
  induction hpath with
  | refl => exact ⟨rfl, hK.imp fun _ => Or.inl, fun _ _ => Or.inr⟩
  | tail _ hedit ih =>
    obtain ⟨graph', hedit, rfl⟩ := hedit
    obtain ⟨hmentions, hthing⟩ := hedit.mentionsOnly ih.mentions.graph (fun id hid => Or.inr ⟨id, rfl, hid⟩)
      fun _ => Or.inl
    exact ⟨ih.schema, ⟨ih.mentions.schema, hmentions⟩, fun id b hb => (hthing id b hb).elim Or.inl (ih.thing id b)⟩

/-- **Any operation on types** draws at most three identifiers, and whatever comes of it, it mentions only those in
addition. -/
theorem perform_schemaEdited (hf : ∀ b, (t.working.schema.forest b).Forest) (hK : t.working.MentionsOnly K)
    (hop : op.editsSchema) : drawn t (t.perform op).2 ≤ 3 ∧
      SchemaEdited K (t.ids.upcoming (drawn t (t.perform op).2)) t.working (t.perform op).2.working := by
  obtain ⟨k, h⟩ := reaches_schema hK hop
  have hk : drawn t (t.perform op).2 = k := drawn_eq h.ids (Nat.lt_of_le_of_lt h.few (by decide))
  exact ⟨hk ▸ h.few, hk ▸ h.schemaEdited hf hK⟩

/-- **Any operation on instances** does the same. -/
theorem perform_graphEdited (hK : t.working.MentionsOnly K) (hop : op.editsGraph) :
    drawn t (t.perform op).2 ≤ 3 ∧
      GraphEdited K (t.ids.upcoming (drawn t (t.perform op).2)) t.working (t.perform op).2.working := by
  obtain ⟨k, h⟩ := reaches_graph hK hop
  have hk : drawn t (t.perform op).2 = k := drawn_eq h.ids (Nat.lt_of_le_of_lt h.few (by decide))
  exact ⟨hk ▸ h.few, hk ▸ h.graphEdited hK⟩

/-- to keep something in all states of a transaction is to keep it in the working state, and not even that if no store
is edited -/
theorem perform_everywhere_of_working {P : State → Prop} (h : t.Everywhere P)
    (hedit : op.editsSchema ∨ op.editsGraph → P (t.perform op).2.working) : (t.perform op).2.Everywhere P := by
  rcases op.edits_or_savepoint with hop | ⟨x, rfl⟩ | ⟨x, rfl⟩ | ⟨x, rfl⟩
  · exact ⟨hedit hop, (perform_edit hop t).1 ▸ h.savepoints⟩
  · refine ⟨h.working, fun name sp hsp => ?_⟩
    rw [perform_savepoint, lookup_insert] at hsp
    split at hsp
    · exact Option.some.inj hsp ▸ h.working
    · exact h.savepoints name sp hsp
  · cases hx : t.savepoints[x]? with
    | none => rwa [perform_rollbackTo_none hx]
    | some spx =>
      rw [perform_rollbackTo hx]
      refine ⟨h.savepoints x spx hx, fun name sp hsp => h.savepoints name sp ?_⟩
      rw [ExtTreeMap.getElem?_filter'] at hsp
      exact Option.eq_some_of_filter_eq_some hsp
  · rw [perform_releaseSavepoint]
    split
    · refine ⟨h.working, fun name sp hsp => h.savepoints name sp ?_⟩
      rw [lookup_erase] at hsp
      split at hsp
      · simp at hsp
      · exact hsp
    · exact h

theorem mentionsOnly_true (x : State) : x.MentionsOnly fun _ => True :=
  ⟨⟨fun _ _ _ => trivial, fun _ _ _ _ _ => trivial, fun _ _ _ => trivial, fun _ _ _ => trivial, fun _ _ _ _ => trivial,
    fun _ _ _ _ => trivial, fun _ _ => trivial, fun _ _ _ => ⟨trivial, fun _ _ => trivial⟩,
    fun _ _ _ => ⟨trivial, fun _ _ => trivial⟩⟩,
  ⟨fun _ _ _ => ⟨trivial, trivial⟩, fun _ _ _ _ => ⟨trivial, trivial⟩, fun _ _ => trivial, fun _ _ _ => trivial,
    fun _ _ _ => ⟨trivial, trivial⟩, fun _ _ => trivial, fun _ _ _ => ⟨trivial, trivial⟩⟩⟩

/-- **Forests stay forests,** whatever comes of an operation, and even if identifiers were handed out again. -/
theorem perform_forests (h : t.Everywhere fun x => ∀ b, (x.schema.forest b).Forest) (op : Operation) :
    (t.perform op).2.Everywhere fun x => ∀ b, (x.schema.forest b).Forest := by
  refine perform_everywhere_of_working h fun hop => ?_
  rcases hop with hop | hop
  · exact (perform_schemaEdited h.working (mentionsOnly_true _) hop).2.forests
  · intro b
    rw [(perform_graphEdited (mentionsOnly_true _) hop).2.schema]
    exact h.working b

end Transaction

namespace Session

variable {config : SessionConfig} {ids : Option IdSource} {journal : Option Journal} {s : Session} {es p : List Event}

/-- **Forests are forests** in every state that a session gets to, however many identifiers are handed out. -/
theorem run_forests (hs : start config ids journal = .ok s) (hp : p <+: es) :
    (s.run p).Everywhere fun x => ∀ b, (x.schema.forest b).Forest :=
  run_everywhere hs (Schema.bootstrap_indexed (MetaTypes.nodup_take _)).forests
    (fun _ op _ _ _ ht => Transaction.perform_forests ht op) hp

end Session

end ConceptGraph
