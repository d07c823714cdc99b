/-
Keys of indexes. A key goes with the last element that is found under it, so an index does not even mention what is gone.

- `Multimap.Tight`: something is found under each key.
- `GraphInvariant`: what every edit of a graph keeps. `tight_graphInvariant`: that what plays is found by tight keys.
- `Transaction.preserves_perform`: what every edit of a graph keeps, every operation keeps, even if it is refused.
- `Session.run_tight`: so the keys are tight in every state that a session gets to.
-/
import ConceptGraph.Proofs.Session.Runs

namespace ConceptGraph

open Std

namespace Multimap

variable {κ α : Type} [Ord κ] [TransOrd κ] [Ord α] {m : Multimap κ α} {k k' : κ} {a : α}

/-- something is found under each key -/
def Tight (m : Multimap κ α) : Prop := ∀ k : κ, m.sets[k]? ≠ some ∅

theorem tight_empty : (empty : Multimap κ α).Tight := by
  intro k
  simp [empty]

variable [TransOrd α]

theorem Tight.insert [LawfulEqOrd κ] [DecidableEq κ] [LawfulEqOrd α] (h : m.Tight) (k : κ) (a : α) : (m.insert k a).Tight := by
  intro k'
  show (m.sets.insert k _)[k']? ≠ _
  rw [lookup_insert]
  split
  · intro he
    have hmem : a ∈ (m.get k).insert a := mem_set_insert.2 (Or.inl rfl)
    rw [Option.some.inj he] at hmem
    exact ExtTreeSet.not_mem_empty hmem
  · exact h k'

theorem Tight.remove [LawfulEqOrd κ] [DecidableEq κ] (h : m.Tight) (k : κ) (a : α) : (m.remove k a).Tight := by
  intro k'
  show (if ((m.get k).erase a).isEmpty then m.sets.erase k else m.sets.insert k _)[k']? ≠ _
  split
  · rw [lookup_erase]
    split
    · simp
    · exact h k'
  · rename_i hne
    rw [lookup_insert]
    split
    · intro he
      exact hne (ExtTreeSet.isEmpty_iff.2 (Option.some.inj he))
    · exact h k'

/-- the keys are those under which something is found -/
theorem Tight.contains_iff (h : m.Tight) : m.contains k ↔ ∃ b, b ∈ m.get k := by
  rw [contains, ConceptGraph.contains_iff, get]
  cases hk : m.sets[k]? with
  | none => simp [ExtTreeSet.not_mem_empty]
  | some set =>
    have hne : set ≠ ∅ := fun he => h k (he ▸ hk)
    rw [ne_eq, ExtTreeSet.eq_empty_iff_forall_not_mem] at hne
    simpa using hne

end Multimap

/-- what every edit of a graph keeps -/
structure GraphInvariant (P : Graph → Prop) : Prop where
  insert : ∀ g id th, P g → P (g.insert id th).2
  remove : ∀ g id th g', P g → g.remove id = .ok (th, g') → P g'
  addRolePlayer : ∀ g r role p added g', P g → g.addRolePlayer r role p = .ok (added, g') → P g'
  removeRolePlayer : ∀ g r role p removed g', P g → g.removeRolePlayer r role p = .ok (removed, g') → P g'

namespace Graph

variable {g : Graph} {id : ThingId} {th : Thing}

theorem foldl_tight {ι : Type} (ms : List ι) {f : PlayerIndex → ι → PlayerIndex}
    (hf : ∀ ix i, Multimap.Tight ix → Multimap.Tight (f ix i)) {ix : PlayerIndex} (h : Multimap.Tight ix) :
    Multimap.Tight (ms.foldl f ix) := by
  induction ms generalizing ix with
  | nil => exact h
  | cons m ms ih => exact ih (hf ix m h)

theorem insert_tight (h : g.byPlayer.Tight) : (g.insert id th).2.byPlayer.Tight := by
  unfold insert
  split
  · exact h
  · exact foldl_tight _ (fun ix p hix => hix.insert _ _) h
  · split
    · exact h
    · exact h

theorem detach_tight (h : g.byPlayer.Tight) (r : ThingId) (rp : RolePlayer) : (g.detach r rp).2.byPlayer.Tight := by
  unfold detach
  split
  · split
    · exact h.remove _ _
    · exact h
  · exact h

theorem unindex_tight (h : g.byPlayer.Tight) : (g.unindex id th).byPlayer.Tight := by
  unfold unindex
  dsimp only
  split
  · exact h
  · exact foldl_tight _ (fun ix p hix => hix.remove _ _) h
  · exact h

/-- **No key is left over** in the index by players after any edit. -/
theorem tight_graphInvariant : GraphInvariant fun g => g.byPlayer.Tight where
  insert _ _ _ h := insert_tight h
  remove g id th g' h hrm := by
    obtain ⟨-, rfl⟩ := remove_eq_ok.1 hrm
    have hun : ({ g with things := g.things.erase id }.unindex id th).byPlayer.Tight := unindex_tight h
    generalize ({ g with things := g.things.erase id }.unindex id th) = g₁ at hun ⊢
    generalize g₁.relationsOf id = ms
    induction ms generalizing g₁ with
    | nil => exact hun
    | cons m ms ih => exact ih _ (detach_tight hun _ _)
  addRolePlayer g r role p added g' h hadd := by
    obtain ⟨-, ps, -, ⟨-, -, rfl⟩ | ⟨-, -, rfl⟩⟩ := addRolePlayer_ok hadd
    · exact h
    · exact h.insert _ _
  removeRolePlayer g r role p removed g' h hrm := by
    have := detach_tight h r ⟨role, p⟩
    rwa [removeRolePlayer_ok hrm] at this

end Graph

namespace Transaction

open State

variable {α β : Type} {P : Graph → Prop} {first : UInt64} {n : Nat} {t : Transaction} {op : Operation}

/-! ## Operations -/

/-- the edit keeps what is said of the graph, whatever comes of it -/
def Preserves (P : Graph → Prop) (e : Edit α) : Prop :=
  ∀ t, P t.working.graph → P (outcome e t).2.working.graph

theorem Preserves.bind {e : Edit β} {k : β → Edit α} (he : Preserves P e) (hk : ∀ b, Preserves P (k b)) :
    Preserves P (e >>= k) := by
  intro t ht
  have h := he t ht
  rw [outcome_bind]
  cases hout : outcome e t with
  | mk r t' =>
    rw [hout] at h
    cases r with
    | error err => exact h
    | ok b => exact hk b t' h

theorem Preserves.map {f : β → α} {e : Edit β} (he : Preserves P e) : Preserves P (f <$> e) := by
  intro t ht
  rw [outcome_map]
  exact he t ht

/-- an edit that leaves the graph alone -/
theorem preserves_of_same {e : Edit α} (h : ∀ t, (outcome e t).2.working.graph = t.working.graph) :
    Preserves P e := by
  intro t ht
  rwa [h t]

theorem preserves_pure (a : α) : Preserves P (pure a : Edit α) := preserves_of_same fun _ => rfl

theorem preserves_ask (f : State → Except ConceptError α) : Preserves P (ask f) :=
  preserves_of_same fun t => by rw [outcome_ask]

theorem preserves_look (f : State → α) : Preserves P (look f) := preserves_of_same fun _ => rfl

theorem preserves_newThing : Preserves P newThing := preserves_of_same fun _ => rfl

theorem preserves_record (m : Mutation) : Preserves P (record m) := preserves_of_same fun _ => rfl

theorem preserves_editGraph {f : Graph → Except ConceptError (α × Graph)}
    (hf : ∀ g a g', P g → f g = .ok (a, g') → P g') : Preserves P (editGraph f) := by
  intro t ht
  rw [outcome_editGraph]
  cases hft : f t.working.graph with
  | ok p => exact hf _ p.1 p.2 ht hft
  | error err => exact ht

section Invariant

variable (hP : GraphInvariant P)

include hP

theorem preserves_insert (id : ThingId) (th : Thing) : Preserves P (editGraph fun g => pure (g.insert id th)) := by
  refine preserves_editGraph fun g a g' hg hins => ?_
  obtain rfl : (g.insert id th).2 = g' := congrArg Prod.snd (Except.ok.inj hins)
  exact hP.insert g id th hg

theorem preserves_removeThing (id : ThingId) : Preserves P (removeThing id) :=
  (preserves_editGraph fun g th g' => hP.remove g id th g').bind fun _ => preserves_pure _

theorem preserves_addRolePlayer (r : ThingId) (role : TypeId) (p : ThingId) :
    Preserves P (editGraph fun g => g.addRolePlayer r role p) :=
  preserves_editGraph fun g added g' => hP.addRolePlayer g r role p added g'

theorem preserves_create (a : TypeId) (kind : Kind) (body : ThingBody) : Preserves P (create a kind body) :=
  (preserves_ask _).bind fun _ => preserves_newThing.bind fun _ => (preserves_insert hP _ _).bind fun _ =>
    (preserves_record _).bind fun _ => preserves_pure _

theorem preserves_putAttribute (a : TypeId) (v : Value) : Preserves P (putAttribute a v) := by
  refine (preserves_ask _).bind fun _ => (preserves_look _).bind fun found => ?_
  cases found with
  | some id => exact preserves_pure id
  | none =>
    exact preserves_newThing.bind fun _ => (preserves_insert hP _ _).bind fun _ =>
      (preserves_record _).bind fun _ => preserves_pure _

theorem preserves_setHas (o a : ThingId) : Preserves P (setHas o a) := by
  refine (preserves_ask _).bind fun _ => (preserves_look _).bind fun found => ?_
  cases found with
  | some r => exact preserves_pure r
  | none =>
    refine (preserves_look _).bind fun record => ?_
    cases record with
    | none => exact preserves_of_same fun _ => rfl
    | some q =>
      exact preserves_newThing.bind fun _ => (preserves_insert hP _ _).bind fun _ =>
        (preserves_addRolePlayer hP _ _ _).bind fun _ => (preserves_addRolePlayer hP _ _ _).bind fun _ =>
          (preserves_record _).bind fun _ => preserves_pure _

theorem preserves_unsetHas (o a : ThingId) : Preserves P (unsetHas o a) := by
  refine (preserves_ask _).bind fun _ => (preserves_ask _).bind fun _ => (preserves_look _).bind fun found => ?_
  cases found with
  | none => exact preserves_pure _
  | some r =>
    exact (preserves_removeThing hP r).bind fun _ => (preserves_record _).bind fun _ => preserves_pure _

theorem preserves_deleteThing (x : ThingId) : Preserves P (deleteThing x) := by
  have hall : ∀ es : List OwnershipEdge, Preserves P (es.forM fun e => removeThing e.relation) := by
    intro es
    induction es with
    | nil => exact preserves_pure _
    | cons e es ih => exact (preserves_removeThing hP e.relation).bind fun _ => ih
  exact (preserves_ask _).bind fun _ => (preserves_look _).bind fun edges => (hall edges).bind fun _ =>
    (preserves_removeThing hP x).bind fun _ => preserves_record _

/-- **What every edit of a graph keeps,** every operation on instances keeps, whatever comes of it. -/
theorem preserves_perform (hop : op.editsGraph) : Preserves P op.perform := by
  cases op with
  | createEntity a => exact (preserves_create hP a .entity .entity).map
  | createRelation a => exact (preserves_create hP a .relation (.relation ∅)).map
  | putAttribute a value => exact (preserves_putAttribute hP a value).map
  | addRolePlayer r role p =>
    refine Preserves.map ((preserves_ask _).bind fun _ => (preserves_addRolePlayer hP r role p).bind fun added => ?_)
    cases added with
    | true => exact preserves_record _
    | false => exact preserves_pure _
  | removeRolePlayer r role p =>
    refine Preserves.map ((preserves_ask _).bind fun _ =>
      (preserves_editGraph fun g removed g' => hP.removeRolePlayer g r role p removed g').bind fun removed => ?_)
    cases removed with
    | true => exact (preserves_record _).bind fun _ => preserves_pure _
    | false => exact preserves_pure _
  | setHas o a => exact (preserves_setHas hP o a).map
  | unsetHas o a => exact (preserves_unsetHas hP o a).map
  | deleteThing x => exact (preserves_deleteThing hP x).map
  | _ => cases hop

theorem perform_graph_everywhere (h : t.Sound first n) (hfit : n + drawn t (t.perform op).2 < 2 ^ 64)
    (ht : t.Everywhere fun s => P s.graph) : (t.perform op).2.Everywhere fun s => P s.graph := by
  have hedited : op.editsGraph → P (t.perform op).2.working.graph := fun hop => preserves_perform hP hop t ht.working
  rcases perform_cases h op hfit with ⟨err, heq⟩ | ⟨r, t', heq, hp⟩ | ⟨err, graph', ⟨x, rfl, -⟩, heq, -⟩
  · rwa [heq]
  · rw [heq] at hedited ⊢
    refine hp.everywhere ht ?_ fun hop _ => hedited hop
    rintro - ⟨k, -, -, -, hstep⟩
    rw [hstep.graph]
    exact ht.working
  · rw [heq] at hedited ⊢
    exact ⟨hedited rfl, ht.savepoints⟩

end Invariant

end Transaction

namespace Session

open Transaction

variable {config : SessionConfig} {ids : Option IdSource} {journal : Option Journal} {s : Session} {es : List Event}

/-- **The keys are tight** in every state that a session gets to. -/
theorem run_tight (hs : start config ids journal = .ok s) (hfit : s.issued es < 2 ^ 64) :
    (s.run es).Everywhere fun x => x.graph.byPlayer.Tight := by
  refine run_everywhere hs Multimap.tight_empty (fun p op t hp hw ht => ?_) (List.prefix_refl _)
  exact perform_graph_everywhere Graph.tight_graphInvariant (writer_sound hs hfit hp hw) (fits_during hfit hw hp) ht

end Session

end ConceptGraph
