/-
Instances and what the schema says of them.

- `Conforms`: types of instances are not abstract; values are of the data type of their type and match its regexes;
  players are in roles that the relation's type relates and their own type plays; who holds an attribute may hold it. The
  data types declared along a walk upwards are equal.
- `Sound.conforms`: that is so in a sound state. Instances whose type is gone have been relations that record ownerships,
  and none of this is about those.
- `Session.conforms_throughout`: so it is in every state that a session gets to.
-/
import ConceptGraph.Proofs.Session.Runs

namespace ConceptGraph

open Std

namespace State

/-- instances are as their types want them, all that is inherited included -/
structure Conforms (s : State) : Prop where
  concrete : ∀ id th d, s.graph.get? id = some th → s.schema.get? th.type = some d → ¬ d.isAbstract
  valued : ∀ id th v, s.graph.get? id = some th → th.value? = some v → s.schema.dataType? th.type = some v.dataType
  matched : ∀ id th v text, s.graph.get? id = some th → th.value? = some v → v.string? = some text →
    ∀ a ∈ s.schema.supertypes th.type, ∀ p, s.schema.declaredRegex? a = some p → p.isMatch text
  playing : ∀ id th d, s.graph.get? id = some th → s.schema.get? th.type = some d → ¬ d.isImplicit →
    ∀ rp ∈ th.rolePlayers, (∃ a ∈ s.schema.supertypes th.type, s.schema.DeclaresRelates a rp.role) ∧
      ∃ player, s.graph.get? rp.player = some player ∧
        ∃ a ∈ s.schema.supertypes player.type, s.schema.DeclaresPlays a rp.role
  holding : ∀ id, ∀ e ∈ s.ownershipsOf id ++ s.ownersOf id, ∃ owner held, s.graph.get? e.owner = some owner ∧
    s.graph.get? e.held = some held ∧ (s.schema.ownership? owner.type held.type).isSome
  agreeing : ∀ t a b v w, a ∈ s.schema.supertypes t → b ∈ s.schema.supertypes t →
    s.schema.declaredDataType? a = some v → s.schema.declaredDataType? b = some w → v = w

variable {s : State} {first : UInt64} {n : Nat}

/-- what is found from either end is an edge -/
theorem Sound.edge_of_mem (h : s.Sound first n) {id : ThingId} {e : OwnershipEdge}
    (he : e ∈ s.ownershipsOf id ++ s.ownersOf id) : ∃ q, s.Edge q e.relation e.owner e.held := by
  rcases List.mem_append.1 he with he | he
  · obtain ⟨rfl, hedge⟩ := (mem_ownershipsOf h.recorded h.indexed h.instances).1 he
    exact hedge
  · obtain ⟨rfl, hedge⟩ := (mem_ownersOf h.recorded h.indexed h.instances).1 he
    exact hedge

theorem Sound.mayHold (h : s.Sound first n) (id : ThingId) {e : OwnershipEdge}
    (he : e ∈ s.ownershipsOf id ++ s.ownersOf id) : s.MayHold e.owner e.held := by
  obtain ⟨q, hedge⟩ := h.edge_of_mem he
  exact hedge.mayHold h.recorded h.instances

/-- **A sound state conforms.** -/
theorem Sound.conforms (h : s.Sound first n) : s.Conforms where
  concrete id th d hth hd := h.instances.concrete id th.bare d (Graph.bare?_of_get? hth) (by rwa [Thing.bare_type])
  valued id th v hth hv := by
    have := h.instances.valued id th.bare v (Graph.bare?_of_get? hth) (by rwa [Thing.bare_value?])
    rwa [Thing.bare_type] at this
  matched id th v text hth hv htext a ha p hp := by
    refine h.instances.matched id th.bare v text (Graph.bare?_of_get? hth) (by rwa [Thing.bare_value?]) htext a p ?_
    rw [Thing.bare_type]
    exact Schema.mem_patterns.2 ⟨ha, hp⟩
  playing id th d hth hd hplain rp hrp := by
    have hb := Graph.bare?_of_get? hth
    have hu : s.UserRelation th.bare := Transaction.userRelation_of_plain h.recorded hd hplain
    have hp : s.graph.Plays id rp.role rp.player := (Graph.plays_iff hth).2 hrp
    obtain ⟨player, hplayer⟩ := Graph.contains_iff_get?.1 (h.closed _ _ _ hp)
    have hrel := h.instances.related id _ _ _ hb hu hp
    have hplay := h.instances.played id _ _ _ _ hb hu hp (Graph.bare?_of_get? hplayer)
    rw [Thing.bare_type] at hrel hplay
    exact ⟨Schema.relatesRole_iff.1 hrel, player, hplayer, Schema.playsRole_iff.1 hplay⟩
  holding id e he := by
    obtain ⟨bo, ba, hbo, hba, hdecl⟩ := h.mayHold id he
    obtain ⟨owner, howner, rfl⟩ := Graph.get?_of_bare? hbo
    obtain ⟨held, hheld, rfl⟩ := Graph.get?_of_bare? hba
    rw [Thing.bare_type, Thing.bare_type] at hdecl
    exact ⟨owner, held, howner, hheld, hdecl⟩
  agreeing := h.agreeing

end State

namespace Session

variable {config : SessionConfig} {ids : Option IdSource} {journal : Option Journal} {s : Session} {es : List Event}

/-- **Instances conform** to the schema in the committed state and in the open transaction, whatever has been done. -/
theorem conforms_throughout (hs : start config ids journal = .ok s) (hfit : s.issued es < 2 ^ 64) :
    (s.run es).committed.Conforms ∧ ∀ t, (s.run es).writer = some t → t.working.Conforms := by
  have h := run_sound hs hfit (List.prefix_refl _)
  exact ⟨h.states.committed.conforms, fun t hw => (h.writer hw).working.conforms⟩

/-- a child, as a person, with a name in small letters -/
def namedChild : List Event :=
  [.begin, .perform (.putEntityType "person"), .perform (.putAttributeType "name" (some .string)),
    .perform (.setRegex ⟨7⟩ "[a-z]+"), .perform (.has ⟨6⟩ ⟨7⟩), .perform (.putEntityType "child"),
    .perform (.setSupertype ⟨11⟩ ⟨6⟩), .perform (.createEntity ⟨11⟩), .perform (.putAttribute ⟨7⟩ (.string "x")),
    .perform (.setHas ⟨12⟩ ⟨13⟩)]

set_option maxRecDepth 10000 in
theorem namedChild_conforms : blank.issued namedChild < 2 ^ 64 ∧ ∃ t, (blank.run namedChild).writer = some t ∧
    t.working.ownershipBetween? ⟨12⟩ ⟨13⟩ = some ⟨14⟩ ∧ t.working.Conforms := by
  have hfit : blank.issued namedChild < 2 ^ 64 := by decide +kernel
  have hheld : (blank.run namedChild).writer.map (fun t => t.working.ownershipBetween? ⟨12⟩ ⟨13⟩) = some (some ⟨14⟩) := by
    decide +kernel
  obtain ⟨t, hw, ht⟩ := Option.map_eq_some_iff.1 hheld
  exact ⟨hfit, t, hw, ht, (conforms_throughout start_testing hfit).2 t hw⟩

end Session

end ConceptGraph
