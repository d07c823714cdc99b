/-
Where identifiers occur in a state: as keys and in entries of all tables, in definitions, and in indexes.

- `State.MentionsOnly K`: all that occurs anywhere is `K`. An element and an instance are told apart, by `Mention`.
- `SchemaEdit`, `GraphEdit`: the edits that operations are made of. `new` elements and instances are put in, and
  definitions and instances may begin to refer to what is `known`.
- `SchemaEdit.mentionsOnly`, `GraphEdit.mentionsOnly`: an edit mentions nothing else in addition, and what is not new
  stays what it is (for elements, `SchemaEdit.element`).
- `SchemaEdit.forests`: forests stay forests, however identifiers are handed out.
-/
import ConceptGraph.Proofs.Schema.Coherence

namespace ConceptGraph

open Std

/-- an identifier as that of a schema element, or as that of an instance -/
inductive Mention where
  | type (t : TypeId)
  | thing (id : ThingId)
  deriving DecidableEq, Repr

def Mention.raw : Mention → UInt64
  | type t => t.raw
  | thing id => id.raw

/-! ## What is mentioned -/

/-- whether the definition mentions the element -/
def TypeDef.Mentions (d : TypeDef) (x : TypeId) : Prop := d.RefersTo x ∨ d.implicitFor? = some x

def ImplicitOwnership.toList (r : ImplicitOwnership) : List TypeId := [r.owned, r.relation, r.ownerRole, r.valueRole]

/-- all elements that the schema mentions are `K` -/
structure Schema.MentionsOnly (K : TypeId → Prop) (s : Schema) : Prop where
  element : ∀ t d, s.get? t = some d → K t
  definition : ∀ t d, s.get? t = some d → ∀ x, d.Mentions x → K x
  label : ∀ l t, s.idOf? l = some t → K t
  node : ∀ b t, (s.forest b).contains t → K t
  parent : ∀ b t p, (s.forest b).parent? t = some p → K p
  child : ∀ b t, ∀ c ∈ (s.forest b).children t, K c
  metaTypes : ∀ t ∈ s.metaTypes.toList, K t
  byOwned : ∀ t r, s.implicitForOwned? t = some r → K t ∧ ∀ x ∈ r.toList, K x
  byRelation : ∀ t r, s.implicitForRelation? t = some r → K t ∧ ∀ x ∈ r.toList, K x

/-- all that the graph mentions is `K` -/
structure Graph.MentionsOnly (K : Mention → Prop) (g : Graph) : Prop where
  thing : ∀ id b, g.bare? id = some b → K (.thing id) ∧ K (.type b.type)
  player : ∀ r role p, g.Plays r role p → K (.type role) ∧ K (.thing p)
  typeKey : ∀ t, g.byType.contains t → K (.type t)
  ofType : ∀ t, ∀ id ∈ g.byType.get t, K (.thing id)
  ofValue : ∀ (k : AttributeKey) (id : ThingId), g.byValue[k]? = some id → K (.type k.type) ∧ K (.thing id)
  playerKey : ∀ p, g.byPlayer.contains p → K (.thing p)
  ofPlayer : ∀ p, ∀ m ∈ g.byPlayer.get p, K (.thing m.relation) ∧ K (.type m.role)

/-- all that the state mentions is `K` -/
structure State.MentionsOnly (K : Mention → Prop) (x : State) : Prop where
  schema : x.schema.MentionsOnly fun t => K (.type t)
  graph : x.graph.MentionsOnly K

section Weaken

variable {K K' : Mention → Prop}

theorem Schema.MentionsOnly.imp {K K' : TypeId → Prop} {s : Schema} (h : s.MentionsOnly K) (hK : ∀ t, K t → K' t) :
    s.MentionsOnly K' where
  element t d hd := hK _ (h.element t d hd)
  definition t d hd x hx := hK _ (h.definition t d hd x hx)
  label l t ht := hK _ (h.label l t ht)
  node b t ht := hK _ (h.node b t ht)
  parent b t p hp := hK _ (h.parent b t p hp)
  child b t c hc := hK _ (h.child b t c hc)
  metaTypes t ht := hK _ (h.metaTypes t ht)
  byOwned t r hr := ⟨hK _ (h.byOwned t r hr).1, fun x hx => hK _ ((h.byOwned t r hr).2 x hx)⟩
  byRelation t r hr := ⟨hK _ (h.byRelation t r hr).1, fun x hx => hK _ ((h.byRelation t r hr).2 x hx)⟩

theorem Graph.MentionsOnly.imp {g : Graph} (h : g.MentionsOnly K) (hK : ∀ m, K m → K' m) : g.MentionsOnly K' where
  thing id b hb := (h.thing id b hb).imp (hK _) (hK _)
  player r role p hp := (h.player r role p hp).imp (hK _) (hK _)
  typeKey t ht := hK _ (h.typeKey t ht)
  ofType t id hid := hK _ (h.ofType t id hid)
  ofValue k id hid := (h.ofValue k id hid).imp (hK _) (hK _)
  playerKey p hp := hK _ (h.playerKey p hp)
  ofPlayer p m hm := (h.ofPlayer p m hm).imp (hK _) (hK _)

theorem State.MentionsOnly.imp {x : State} (h : x.MentionsOnly K) (hK : ∀ m, K m → K' m) : x.MentionsOnly K' :=
  ⟨h.schema.imp fun _ => hK _, h.graph.imp hK⟩

end Weaken

/-! ## Edits -/

/-- the definition of an element of the same kind, which mentions only what is known in addition -/
structure TypeDef.Evolves (known : TypeId → Prop) (d d' : TypeDef) : Prop where
  kind : d'.kind = d.kind
  implicitFor : d'.implicitFor? = d.implicitFor?
  mentions : ∀ x, d'.RefersTo x → d.RefersTo x ∨ known x

/-- one edit of a schema -/
inductive SchemaEdit (new known : TypeId → Prop) (s : Schema) : Schema → Prop where
  | insert {t p : TypeId} {d : TypeDef} {s' : Schema} (h : s.insert t d p = .ok s') (ht : new t)
      (hd : ∀ x, d.Mentions x → known x) : SchemaEdit new known s s'
  | redefine {t : TypeId} {d d' : TypeDef} (hd : s.get? t = some d) (h : d.Evolves known d') :
      SchemaEdit new known s (s.redefine t d')
  | redefineAll {f : TypeDef → TypeDef} (h : ∀ d, TypeDef.Evolves known d (f d)) :
      SchemaEdit new known s (s.redefineAll f)
  | relabel {t : TypeId} {l : Label} {s' : Schema} (h : s.relabel t l = .ok s') : SchemaEdit new known s s'
  | reparent {t p : TypeId} {old : Option TypeId} {s' : Schema} (h : s.reparent t p = .ok (old, s')) :
      SchemaEdit new known s s'
  | remove {t : TypeId} {d : TypeDef} {s' : Schema} (h : s.remove t = .ok (d, s')) : SchemaEdit new known s s'
  | register {r : ImplicitOwnership} (hr : ∀ x ∈ r.toList, known x) : SchemaEdit new known s (s.registerImplicit r)
  | unregister {t : TypeId} : SchemaEdit new known s (s.unregisterImplicit t)

/-- one edit of a graph -/
inductive GraphEdit (new : ThingId → Prop) (known : TypeId → Prop) (g : Graph) : Graph → Prop where
  | insert {id : ThingId} {th : Thing} (hid : new id) (ht : known th.type) (hno : th.rolePlayers = []) :
      GraphEdit new known g (g.insert id th).2
  | addRolePlayer {r p : ThingId} {role : TypeId} {added : Bool} {g' : Graph}
      (h : g.addRolePlayer r role p = .ok (added, g')) (hrole : known role) : GraphEdit new known g g'
  | removeRolePlayer {r p : ThingId} {role : TypeId} {removed : Bool} {g' : Graph}
      (h : g.removeRolePlayer r role p = .ok (removed, g')) : GraphEdit new known g g'
  | remove {id : ThingId} {th : Thing} {g' : Graph} (h : g.remove id = .ok (th, g')) : GraphEdit new known g g'

/-! ## Edits of a schema -/

/-- the forests of `s'` are forests, whose nodes are new or those of `s` -/
structure Schema.ForestsFrom (new : TypeId → Prop) (s s' : Schema) : Prop where
  forests : ∀ b, (s'.forest b).Forest
  node : ∀ b x, (s'.forest b).contains x → new x ∨ (s.forest b).contains x

/-- the types to start from are those of `s`, and a record is one of `s` or names only what is known -/
structure Schema.RecordsFrom (known : TypeId → Prop) (s s' : Schema) : Prop where
  metaTypes : s'.metaTypes = s.metaTypes
  byOwned : ∀ x r, s'.implicitForOwned? x = some r →
    (x ∈ r.toList ∧ ∀ y ∈ r.toList, known y) ∨ s.implicitForOwned? x = some r
  byRelation : ∀ x r, s'.implicitForRelation? x = some r →
    (x ∈ r.toList ∧ ∀ y ∈ r.toList, known y) ∨ s.implicitForRelation? x = some r

namespace SchemaEdit

variable {new known K : TypeId → Prop} {s s' : Schema} {t p : TypeId} {d d' : TypeDef}

theorem mono {new' known' : TypeId → Prop} (hnew : ∀ t, new t → new' t) (hknown : ∀ t, known t → known' t)
    (h : SchemaEdit new known s s') : SchemaEdit new' known' s s' := by
  have hmono : ∀ {d d' : TypeDef}, d.Evolves known d' → d.Evolves known' d' := fun h =>
    ⟨h.kind, h.implicitFor, fun x hx => (h.mentions x hx).imp_right (hknown x)⟩
  cases h with
  | insert h ht hd => exact .insert h (hnew _ ht) fun x hx => hknown x (hd x hx)
  | redefine hd h => exact .redefine hd (hmono h)
  | redefineAll h => exact .redefineAll fun d => hmono (h d)
  | relabel h => exact .relabel h
  | reparent h => exact .reparent h
  | remove h => exact .remove h
  | register hr => exact .register fun x hx => hknown x (hr x hx)
  | unregister => exact .unregister

/-! ### Forests -/

theorem forest_unregister (s : Schema) (t : TypeId) (b : Bool) : (s.unregisterImplicit t).forest b = s.forest b := by
  unfold Schema.unregisterImplicit
  split <;> rfl

theorem forest_relabel {l : Label} (h : s.relabel t l = .ok s') (b : Bool) : s'.forest b = s.forest b := by
  obtain ⟨-, d, -, rfl⟩ := Schema.relabel_eq_ok.1 h
  rfl

/-- one of the two forests is replaced -/
theorem forests_replaced {c : Bool} {k : Hierarchy TypeId} (hf : ∀ b, (s.forest b).Forest) (hk : k.Forest)
    (hnode : ∀ x, k.contains x → new x ∨ (s.forest c).contains x)
    (hforest : ∀ b, s'.forest b = if b = c then k else s.forest b) : s.ForestsFrom new s' := by
  refine ⟨fun b => ?_, fun b x hx => ?_⟩
  · rw [hforest]
    split
    · exact hk
    · exact hf b
  · rw [hforest] at hx
    split at hx
    · rename_i hb
      exact hb ▸ hnode x hx
    · exact Or.inr hx

/-- **One edit** keeps forests, and puts nothing in but what is new. -/
theorem forests (h : SchemaEdit new known s s') (hf : ∀ b, (s.forest b).Forest) : s.ForestsFrom new s' := by
  have hsame : (∀ b, s'.forest b = s.forest b) → s.ForestsFrom new s' :=
    fun heq => ⟨fun b => heq b ▸ hf b, fun b x hx => Or.inr (heq b ▸ hx)⟩
  cases h with
  | insert h ht hd =>
    obtain ⟨k, hk, hforest⟩ := Schema.forest_insert h
    refine forests_replaced hf (Hierarchy.insert_forest hk (hf _)) (fun x hx => ?_) hforest
    exact ((Hierarchy.contains_insert hk x).1 hx).imp_left fun (heq : x = _) => heq ▸ ht
  | redefine hd h => exact hsame fun _ => rfl
  | redefineAll h => exact hsame fun _ => rfl
  | relabel h => exact hsame (forest_relabel h)
  | reparent h =>
    obtain ⟨k, hk, rfl⟩ := Schema.reparent_eq_ok.1 h
    exact forests_replaced hf (Hierarchy.reparent_forest hk (hf _))
      (fun x hx => Or.inr ((Hierarchy.contains_reparent hk x).1 hx)) fun b => s.forest_setHierarchy _ b k
  | remove h =>
    obtain ⟨-, k, hk, rfl⟩ := Schema.remove_eq_ok.1 h
    exact forests_replaced hf (Hierarchy.remove_forest hk (hf _))
      (fun x hx => Or.inr ((Hierarchy.contains_remove hk x).1 hx).2) fun b => s.forest_setHierarchy _ b k
  | register hr => exact hsame fun _ => rfl
  | unregister => exact hsame (forest_unregister s _)

/-! ### Definitions -/

theorem get?_unregister (s : Schema) (t x : TypeId) : (s.unregisterImplicit t).get? x = s.get? x := by
  unfold Schema.unregisterImplicit
  split <;> rfl

/-- **One edit** defines what is new, and changes other definitions only so far. -/
theorem element (h : SchemaEdit new known s s') {x : TypeId} {e' : TypeDef} (he : s'.get? x = some e') :
    (new x ∧ ∀ y, e'.Mentions y → known y) ∨ ∃ e, s.get? x = some e ∧ e.Evolves known e' := by
  have hrefl : ∀ e : TypeDef, e.Evolves known e := fun e => ⟨rfl, rfl, fun _ => Or.inl⟩
  cases h with
  | insert h ht hd =>
    rw [Schema.get?_insert h] at he
    split at he
    · rename_i hx
      obtain rfl := Option.some.inj he
      exact Or.inl ⟨hx ▸ ht, hd⟩
    · exact Or.inr ⟨e', he, hrefl e'⟩
  | redefine hd h =>
    rw [Schema.get?_redefine] at he
    split at he
    · rename_i hx
      obtain rfl := Option.some.inj he
      exact Or.inr ⟨_, hx ▸ hd, h⟩
    · exact Or.inr ⟨e', he, hrefl e'⟩
  | redefineAll h =>
    rw [Schema.get?_redefineAll, Option.map_eq_some_iff] at he
    obtain ⟨e, he, rfl⟩ := he
    exact Or.inr ⟨e, he, h e⟩
  | relabel h =>
    rw [Schema.get?_relabel h] at he
    split at he
    · rename_i hx
      obtain ⟨e, hold, rfl⟩ := Option.map_eq_some_iff.1 he
      exact Or.inr ⟨e, hx ▸ hold, rfl, rfl, fun _ => Or.inl⟩
    · exact Or.inr ⟨e', he, hrefl e'⟩
  | reparent h => exact Or.inr ⟨e', by rwa [Schema.get?_reparent h] at he, hrefl e'⟩
  | remove h =>
    rw [Schema.get?_remove h] at he
    split at he
    · simp at he
    · exact Or.inr ⟨e', he, hrefl e'⟩
  | register hr => exact Or.inr ⟨e', he, hrefl e'⟩
  | unregister => exact Or.inr ⟨e', by rwa [get?_unregister] at he, hrefl e'⟩

/-! ### Labels and records -/

/-- a label leads to what is new, or to what it or another label led to before -/
theorem label (h : SchemaEdit new known s s') {l : Label} {x : TypeId} (hx : s'.idOf? l = some x) :
    new x ∨ (∃ l', s.idOf? l' = some x) ∨ ∃ e, s.get? x = some e := by
  have hold : s.idOf? l = some x → new x ∨ (∃ l', s.idOf? l' = some x) ∨ ∃ e, s.get? x = some e :=
    fun hl => Or.inr (Or.inl ⟨l, hl⟩)
  cases h with
  | insert h ht hd =>
    rw [Schema.idOf?_insert h] at hx
    split at hx
    · exact Or.inl (Option.some.inj hx ▸ ht)
    · exact hold hx
  | redefine hd h => exact hold hx
  | redefineAll h => exact hold hx
  | relabel h =>
    obtain ⟨-, d, hd, rfl⟩ := Schema.relabel_eq_ok.1 h
    simp only [Schema.idOf?, lookup_insert, lookup_erase] at hx
    split at hx
    · exact Or.inr (Or.inr ⟨d, Option.some.inj hx ▸ hd⟩)
    · split at hx
      · simp at hx
      · exact hold hx
  | reparent h => exact hold (by rwa [Schema.idOf?, (Schema.tables_reparent h).2.1] at hx)
  | remove h =>
    rw [Schema.idOf?_remove h] at hx
    split at hx
    · simp at hx
    · exact hold hx
  | register hr => exact hold hx
  | unregister =>
    refine hold ?_
    unfold Schema.unregisterImplicit at hx
    split at hx <;> exact hx

/-- **One edit** leaves the types to start from and all records, but for a new one of what is known. -/
theorem records (h : SchemaEdit new known s s') : s.RecordsFrom known s' := by
  have hsame : s'.metaTypes = s.metaTypes ∧ s'.implicitByOwned = s.implicitByOwned ∧
      s'.implicitByRelation = s.implicitByRelation → s.RecordsFrom known s' := by
    rintro ⟨hm, ho, hr⟩
    refine ⟨hm, fun x r hx => Or.inr ?_, fun x r hx => Or.inr ?_⟩
    · rwa [Schema.implicitForOwned?, ho] at hx
    · rwa [Schema.implicitForRelation?, hr] at hx
  cases h with
  | insert h ht hd => exact hsame (Schema.tables_insert h)
  | redefine hd h => exact hsame ⟨rfl, rfl, rfl⟩
  | redefineAll h => exact hsame ⟨rfl, rfl, rfl⟩
  | relabel h => exact hsame (Schema.tables_relabel h)
  | reparent h => exact hsame (Schema.tables_reparent h).2.2
  | remove h => exact hsame (Schema.tables_remove h)
  | @register r hr =>
    refine ⟨rfl, fun x q hx => ?_, fun x q hx => ?_⟩
    · simp only [Schema.implicitForOwned?, Schema.registerImplicit, lookup_insert] at hx
      split at hx
      · rename_i hxo
        obtain rfl := Option.some.inj hx
        exact Or.inl ⟨by simp [ImplicitOwnership.toList, hxo], hr⟩
      · exact Or.inr hx
    · simp only [Schema.implicitForRelation?, Schema.registerImplicit, lookup_insert] at hx
      split at hx
      · rename_i hxr
        obtain rfl := Option.some.inj hx
        exact Or.inl ⟨by simp [ImplicitOwnership.toList, hxr], hr⟩
      · exact Or.inr hx
  | @unregister t =>
    unfold Schema.unregisterImplicit
    split
    · refine ⟨rfl, fun x q hx => Or.inr ?_, fun x q hx => Or.inr ?_⟩
      · simp only [Schema.implicitForOwned?, lookup_erase] at hx
        split at hx
        · simp at hx
        · exact hx
      · simp only [Schema.implicitForRelation?, lookup_erase] at hx
        split at hx
        · simp at hx
        · exact hx
    · exact ⟨rfl, fun _ _ => Or.inr, fun _ _ => Or.inr⟩

end SchemaEdit

/-- in forests, it is nodes that edges lead to -/
theorem Schema.MentionsOnly.of_nodes {K : TypeId → Prop} {s : Schema} (hf : ∀ b, (s.forest b).Forest)
    (helement : ∀ t d, s.get? t = some d → K t ∧ ∀ x, d.Mentions x → K x) (hlabel : ∀ l t, s.idOf? l = some t → K t)
    (hnode : ∀ b t, (s.forest b).contains t → K t) (hmeta : ∀ t ∈ s.metaTypes.toList, K t)
    (howned : ∀ t r, s.implicitForOwned? t = some r → K t ∧ ∀ x ∈ r.toList, K x)
    (hrelation : ∀ t r, s.implicitForRelation? t = some r → K t ∧ ∀ x ∈ r.toList, K x) : s.MentionsOnly K where
  element t d hd := (helement t d hd).1
  definition t d hd := (helement t d hd).2
  label := hlabel
  node := hnode
  parent b t p hp := hnode b p ((hf b).parent_mem t p hp)
  child b t c hc := hnode b c (Hierarchy.contains_of_parent (((hf b).child_iff c t).1 hc))
  metaTypes := hmeta
  byOwned := howned
  byRelation := hrelation

/-- **One edit** of a schema mentions what is new or known, and nothing else in addition. -/
theorem SchemaEdit.mentionsOnly {new K : TypeId → Prop} {s s' : Schema} (h : SchemaEdit new K s s')
    (hf : ∀ b, (s.forest b).Forest) (hs : s.MentionsOnly K) (hnew : ∀ t, new t → K t) : s'.MentionsOnly K := by
  obtain ⟨hf', hnode⟩ := h.forests hf
  obtain ⟨hmeta, howned, hrelation⟩ := h.records
  refine .of_nodes hf' (fun t d hd => ?_) (fun l t ht => ?_) (fun b t ht => ?_) (hmeta ▸ hs.metaTypes)
    (fun t r hr => ?_) fun t r hr => ?_
  · rcases h.element hd with ⟨ht, hall⟩ | ⟨e, he, hevolves⟩
    · exact ⟨hnew t ht, hall⟩
    · refine ⟨hs.element t e he, fun x hx => ?_⟩
      rcases hx with hx | hx
      · exact (hevolves.mentions x hx).elim (fun hx => hs.definition t e he x (Or.inl hx)) id
      · exact hs.definition t e he x (Or.inr (hevolves.implicitFor ▸ hx))
  · rcases h.label ht with ht | ⟨l', ht⟩ | ⟨e, ht⟩
    · exact hnew t ht
    · exact hs.label l' t ht
    · exact hs.element t e ht
  · exact (hnode b t ht).elim (hnew t) (hs.node b t)
  · exact (howned t r hr).elim (fun hr => ⟨hr.2 t hr.1, hr.2⟩) (hs.byOwned t r)
  · exact (hrelation t r hr).elim (fun hr => ⟨hr.2 t hr.1, hr.2⟩) (hs.byRelation t r)

/-! ## Edits of a graph -/

namespace Multimap

variable {κ α : Type} [Ord κ] [TransOrd κ] [LawfulEqOrd κ] [Ord α] [TransOrd α] {m : Multimap κ α} {k k' : κ} {a : α}

theorem contains_insert (h : (m.insert k a).contains k') : k' = k ∨ m.contains k' := by
  simpa only [contains, insert, ExtTreeMap.contains_insert, compare_iff, Bool.or_eq_true, beq_iff_eq] using h

/-- a key that is kept was there before -/
theorem contains_remove (h : (m.remove k a).contains k') : m.contains k' := by
  unfold remove contains at h
  dsimp only at h
  split at h
  · rw [ExtTreeMap.contains_erase] at h
    exact (Bool.and_eq_true_iff.1 h).2
  · rename_i hne
    simp only [ExtTreeMap.contains_insert, compare_iff, Bool.or_eq_true, beq_iff_eq] at h
    rcases h with rfl | h
    · refine contains_iff.2 ?_
      cases hk : m.sets[k']? with
      | some set => exact ⟨set, rfl⟩
      | none => exact absurd (by simp [get, hk]) hne
    · exact h

end Multimap

namespace Graph

variable {K : Mention → Prop} {g g' : Graph} {r p id : ThingId} {rp : RolePlayer} {th : Thing}

theorem bare?_detach (g : Graph) (r : ThingId) (rp : RolePlayer) (x : ThingId) :
    (g.detach r rp).2.bare? x = g.bare? x := by
  unfold detach
  cases hr : g.playersOf? r with
  | none => rfl
  | some ps =>
    dsimp only
    split
    · exact bare?_setPlayers hr _ x
    · rfl

/-- to take a player out mentions nothing in addition -/
theorem MentionsOnly.detach (h : g.MentionsOnly K) (r : ThingId) (rp : RolePlayer) :
    (g.detach r rp).2.MentionsOnly K := by
  have hbare := g.bare?_detach r rp
  unfold Graph.detach at hbare ⊢
  cases hr : g.playersOf? r with
  | none => exact h
  | some ps =>
    simp only [hr] at hbare
    dsimp only
    split
    · rename_i hmem
      rw [if_pos hmem] at hbare
      refine ⟨fun id b hb => h.thing id b (hbare id ▸ hb), fun x role p hp => ?_, h.typeKey, h.ofType, h.ofValue,
        fun p hp => h.playerKey p (Multimap.contains_remove hp), fun p m hm => h.ofPlayer p m (mem_drop.1 hm).1⟩
      have hp := (plays_setPlayers hr (ps.erase rp) x role p).1 hp
      split at hp
      · exact h.player r role p ((plays_of_playersOf? hr role p).2 (mem_set_erase.1 hp).2)
      · exact h.player x role p hp
    · exact h

/-- nor does it to take a player out of several relations -/
theorem foldl_detach (id : ThingId) (ms : List Membership) (h : g.MentionsOnly K) :
    (ms.foldl (fun g m => (g.detach m.relation ⟨m.role, id⟩).2) g).MentionsOnly K ∧
      ∀ x, (ms.foldl (fun g m => (g.detach m.relation ⟨m.role, id⟩).2) g).bare? x = g.bare? x := by
  induction ms generalizing g with
  | nil => exact ⟨h, fun _ => rfl⟩
  | cons m ms ih =>
    obtain ⟨hall, hbare⟩ := ih (h.detach m.relation ⟨m.role, id⟩)
    exact ⟨hall, fun x => (hbare x).trans (g.bare?_detach _ _ x)⟩

theorem contains_foldl_drop {ps : List RolePlayer} {ix : PlayerIndex}
    (h : Multimap.contains (ps.foldl (fun ix p => PlayerIndex.drop ix r p) ix) p) : Multimap.contains ix p := by
  induction ps generalizing ix with
  | nil => exact h
  | cons q ps ih => exact Multimap.contains_remove (ih h)

/-- to take an instance out of the tables mentions nothing in addition -/
theorem MentionsOnly.unindex (h : g.MentionsOnly K) (id : ThingId) (th : Thing) :
    ({ g with things := g.things.erase id }.unindex id th).MentionsOnly K ∧
      ∀ x, ({ g with things := g.things.erase id }.unindex id th).bare? x = if x = id then none else g.bare? x := by
  have hthings : ({ g with things := g.things.erase id }.unindex id th).things = g.things.erase id := by
    rw [unindex_eq]
  have hbare := bare?_erased hthings
  refine ⟨⟨fun x b hb => ?_, fun x role p hp => h.player x role p ((plays_erased hthings x role p).1 hp).1,
    fun t ht => ?_, fun t x hx => ?_, fun k x hx => ?_, fun p hp => ?_, fun p m hm => ?_⟩, hbare⟩
  · rw [hbare] at hb
    split at hb
    · simp at hb
    · exact h.thing x b hb
  · rw [unindex_eq] at ht
    exact h.typeKey t (Multimap.contains_remove ht)
  · rw [unindex_eq] at hx
    exact h.ofType t x (Multimap.mem_remove.1 hx).1
  · rw [unindex_eq] at hx
    cases hv : th.value? with
    | none =>
      rw [hv] at hx
      exact h.ofValue k x hx
    | some v =>
      simp only [hv, Option.elim, lookup_erase] at hx
      split at hx
      · simp at hx
      · exact h.ofValue k x hx
  · rw [unindex_eq] at hp
    exact h.playerKey p (contains_foldl_drop hp)
  · rw [unindex_eq] at hm
    exact h.ofPlayer p m (mem_foldl_drop.1 hm).1

theorem MentionsOnly.remove (h : g.MentionsOnly K) (hrm : g.remove id = .ok (th, g')) : g'.MentionsOnly K ∧
    ∀ x b, g'.bare? x = some b → g.bare? x = some b := by
  obtain ⟨-, rfl⟩ := remove_eq_ok.1 hrm
  obtain ⟨hall, hbare⟩ := h.unindex id th
  obtain ⟨hall', hbare'⟩ := foldl_detach id (({ g with things := g.things.erase id }.unindex id th).relationsOf id) hall
  refine ⟨hall', fun x b hb => ?_⟩
  rw [hbare', hbare] at hb
  split at hb
  · simp at hb
  · exact hb

/-- one more player mentions the role and the player -/
theorem MentionsOnly.addRolePlayer {role : TypeId} {added : Bool} (h : g.MentionsOnly K)
    (hadd : g.addRolePlayer r role p = .ok (added, g')) (hrole : K (.type role)) : g'.MentionsOnly K ∧
      ∀ x, g'.bare? x = g.bare? x := by
  obtain ⟨hp, ps, hr, ⟨-, -, rfl⟩ | ⟨-, -, rfl⟩⟩ := addRolePlayer_ok hadd
  · exact ⟨h, fun _ => rfl⟩
  · have hplayer : K (.thing p) := by
      obtain ⟨b, hb⟩ := contains_iff_bare?.1 hp
      exact (h.thing p b hb).1
    have hrelation : K (.thing r) := by
      obtain ⟨th, hth, -⟩ := Option.bind_eq_some_iff.1 hr
      exact (h.thing r th.bare (bare?_of_get? hth)).1
    have hbare := bare?_setPlayers hr (ps.insert ⟨role, p⟩)
    refine ⟨⟨fun id b hb => h.thing id b (hbare id ▸ hb), fun x ro q hq => ?_, h.typeKey, h.ofType, h.ofValue,
      fun q hq => ?_, fun q m hm => ?_⟩, hbare⟩
    · have hq := (plays_setPlayers hr (ps.insert ⟨role, p⟩) x ro q).1 hq
      split at hq
      · rcases mem_set_insert.1 hq with heq | hold
        · obtain ⟨rfl, rfl⟩ := RolePlayer.mk.inj heq
          exact ⟨hrole, hplayer⟩
        · exact h.player r ro q ((plays_of_playersOf? hr ro q).2 hold)
      · exact h.player x ro q hq
    · exact (Multimap.contains_insert hq).elim (fun heq => heq ▸ hplayer) (h.playerKey q)
    · rcases mem_add.1 hm with ⟨hmr, heq⟩ | hold
      · obtain ⟨rfl, rfl⟩ := RolePlayer.mk.inj heq
        exact ⟨hmr ▸ hrelation, hrole⟩
      · exact h.ofPlayer q m hold

/-- a new instance without players mentions itself and its type -/
theorem MentionsOnly.insert (h : g.MentionsOnly K) (hid : K (.thing id)) (ht : K (.type th.type))
    (hno : th.rolePlayers = []) : (g.insert id th).2.MentionsOnly K ∧
      ∀ x b, (g.insert id th).2.bare? x = some b → x = id ∨ g.bare? x = some b := by
  rcases insert_same_or_new g id th with hsame | hnew
  · rw [hsame]
    exact ⟨h, fun _ _ => Or.inr⟩
  rw [insert_eq hnew]
  dsimp only
  -- the instance is stored under its identifier, and nothing else is
  have hbare : ∀ x b, ({ g with things := g.things.insert id th } : Graph).bare? x = some b →
      (x = id ∧ b = th.bare) ∨ g.bare? x = some b := by
    intro x b hb
    rw [bare?_stored rfl] at hb
    split at hb
    · exact Or.inl ⟨‹_›, (Option.some.inj hb).symm⟩
    · exact Or.inr hb
  have hplays : ∀ x role q, ({ g with things := g.things.insert id th } : Graph).Plays x role q →
      g.Plays x role q := by
    intro x role q hq
    by_cases hx : x = id
    · subst hx
      have hget : ({ g with things := g.things.insert x th } : Graph).get? x = some th := by simp [get?]
      have := (plays_iff hget).1 hq
      rw [hno] at this
      exact absurd this List.not_mem_nil
    · simpa only [Plays, playersOf?, get?, lookup_insert, hx, if_false] using hq
  refine ⟨⟨fun x b hb => ?_, fun x role q hq => h.player x role q (hplays x role q hq), fun t htype => ?_,
    fun t x hx => ?_, fun k x hx => ?_, ?_, ?_⟩, fun x b hb => (hbare x b hb).imp_left And.left⟩
  · rcases hbare x b hb with ⟨rfl, rfl⟩ | hold
    · exact ⟨hid, by rwa [Thing.bare_type]⟩
    · exact h.thing x b hold
  · exact (Multimap.contains_insert htype).elim (fun heq => heq ▸ ht) (h.typeKey t)
  · exact (Multimap.mem_insert.1 hx).elim (fun heq => heq.2 ▸ hid) (h.ofType t x)
  · dsimp only at hx
    cases hv : th.value? with
    | none =>
      rw [hv] at hx
      exact h.ofValue k x hx
    | some v =>
      simp only [hv, Option.elim, lookup_insert] at hx
      split at hx
      · rename_i hk
        exact ⟨hk ▸ ht, Option.some.inj hx ▸ hid⟩
      · exact h.ofValue k x hx
  · simp only [hno, List.foldl_nil]
    exact h.playerKey
  · simp only [hno, List.foldl_nil]
    exact h.ofPlayer

end Graph

namespace GraphEdit

variable {new : ThingId → Prop} {known : TypeId → Prop} {K : Mention → Prop} {g g' : Graph}

theorem mono {new' : ThingId → Prop} {known' : TypeId → Prop} (hnew : ∀ id, new id → new' id)
    (hknown : ∀ t, known t → known' t) (h : GraphEdit new known g g') : GraphEdit new' known' g g' := by
  cases h with
  | insert hid ht hno => exact .insert (hnew _ hid) (hknown _ ht) hno
  | addRolePlayer h hrole => exact .addRolePlayer h (hknown _ hrole)
  | removeRolePlayer h => exact .removeRolePlayer h
  | remove h => exact .remove h

/-- **One edit** of a graph mentions what is new or known, and nothing else in addition; and an instance that is not new
stays the one it is, apart from its players. -/
theorem mentionsOnly (h : GraphEdit new known g g') (hg : g.MentionsOnly K) (hnew : ∀ id, new id → K (.thing id))
    (hknown : ∀ t, known t → K (.type t)) : g'.MentionsOnly K ∧
      ∀ id b, g'.bare? id = some b → new id ∨ g.bare? id = some b := by
  cases h with
  | insert hid ht hno =>
    obtain ⟨hall, hbare⟩ := hg.insert (hnew _ hid) (hknown _ ht) hno
    exact ⟨hall, fun x b hb => (hbare x b hb).imp_left fun (heq : x = _) => heq ▸ hid⟩
  | addRolePlayer h hrole =>
    obtain ⟨hall, hbare⟩ := hg.addRolePlayer h (hknown _ hrole)
    exact ⟨hall, fun id b hb => Or.inr (hbare id ▸ hb)⟩
  | @removeRolePlayer r p role _ _ h =>
    have hall := hg.detach r ⟨role, p⟩
    have hbare := g.bare?_detach r ⟨role, p⟩
    rw [Graph.removeRolePlayer_ok h] at hall hbare
    exact ⟨hall, fun id b hb => Or.inr (hbare id ▸ hb)⟩
  | remove h =>
    obtain ⟨hall, hbare⟩ := hg.remove h
    exact ⟨hall, fun id b hb => Or.inr (hbare id b hb)⟩

end GraphEdit

/-! ## An empty keyspace -/

/-- the types to start from mention each other and nothing else -/
theorem State.bootstrap_mentionsOnly {m : MetaTypes} (hm : m.toList.Nodup) :
    (⟨.bootstrap m, .empty⟩ : State).MentionsOnly fun x => ∃ t ∈ m.toList, x = .type t := by
  have hindexed := Schema.bootstrap_indexed hm
  have hdefined : ∀ {t d}, (Schema.bootstrap m).get? t = some d → ∃ x ∈ m.toList, Mention.type t = .type x :=
    fun hd => ⟨_, Schema.mem_of_bootstrap hm hd, rfl⟩
  refine ⟨.of_nodes hindexed.forests (fun t d hd => ⟨hdefined hd, fun x hx => ?_⟩) (fun l t ht => ?_) (fun b t ht => ?_)
    (fun t ht => ⟨t, ht, rfl⟩) (fun t r hr => ?_) fun t r hr => ?_, ?_⟩
  · have hbare := Schema.bootstrap_bare hm hd
    rcases hx with hx | hx
    · exact absurd hx (hbare.not_refersTo x)
    · rw [TypeDef.implicitFor?, hbare.body] at hx
      cases hk : d.kind <;> simp [hk, TypeBody.blank] at hx
  · obtain ⟨d, hd, -⟩ := (hindexed.label l t).1 ht
    exact hdefined hd
  · obtain ⟨d, hd, -⟩ := (hindexed.node b t).1 ht
    exact hdefined hd
  · simp [Schema.implicitForOwned?, Schema.bootstrap] at hr
  · simp [Schema.implicitForRelation?, Schema.bootstrap] at hr
  · refine ⟨fun id b hb => ?_, fun r role p hp => ?_, fun t ht => ?_, fun t id hid => ?_, fun k id hid => ?_,
      fun p hp => ?_, fun p q hq => ?_⟩
    · simp [Graph.empty, Graph.bare?, Graph.get?] at hb
    · obtain ⟨b, hb, -⟩ := hp.relation
      simp [Graph.empty, Graph.bare?, Graph.get?] at hb
    · simp [Graph.empty, Multimap.empty, Multimap.contains] at ht
    · exact absurd hid Multimap.not_mem_empty
    · simp [Graph.empty] at hid
    · simp [Graph.empty, Multimap.empty, Multimap.contains] at hp
    · exact absurd hq Multimap.not_mem_empty

end ConceptGraph
