/-
What edits of the graph do to the instances; the schema stays as it is.

- `Sound.store`: a new instance that is as its type wants it (`Fits`). It may come with its two players, if it records
  an ownership (`Sound.hold`).
- `Sound.regraph`: no new instances, and ownerships kept as long as their relations are. That covers a player more or
  less in a relation of a user (`Sound.join`, `Sound.leave`) and an instance that goes, at no end of an ownership
  (`Sound.erase`). The relation that records an ownership is itself at no end of one (`Edge.not_end`).
-/
import ConceptGraph.Proofs.State.Soundness

namespace ConceptGraph

open Std

namespace State

variable {s : State} {graph' : Graph} {first : UInt64} {n : Nat} {id r o a p : ThingId} {t role : TypeId} {b : Thing}
  {q : ImplicitOwnership}

/-- the next identifier names no instance -/
theorem Sound.not_contains_next (h : s.Sound first n) (id : ThingId) (hid : id.raw = first + UInt64.ofNat n) (hn : n < 2 ^ 64) :
    ¬ s.graph.contains id := by
  intro hc
  obtain ⟨b, hb⟩ := Graph.contains_iff_bare?.1 hc
  have := (h.issuedThings id b hb).1
  rw [hid, issued_offset hn] at this
  exact Nat.lt_irrefl n this

/-- players are stored, and so are the relations in which they play -/
theorem Sound.ends_stored (h : s.Sound first n) (hp : s.graph.Plays r role p) :
    (∃ b, s.graph.bare? r = some b) ∧ ∃ c, s.graph.bare? p = some c := by
  obtain ⟨b, hb, -⟩ := hp.relation
  exact ⟨⟨b, hb⟩, Graph.contains_iff_bare?.1 (h.closed r role p hp)⟩

/-! ## A new instance -/

/-- an instance that is as its type wants it, with the players in `new` -/
structure Fits (s : State) (b : Thing) (new : TypeId → ThingId → Prop) : Prop where
  typed : s.schema.HasKind b.type b.kind
  concrete : ∀ d, s.schema.get? b.type = some d → ¬ d.isAbstract
  valued : ∀ v, b.value? = some v → s.schema.dataType? b.type = some v.dataType
  matched : ∀ v text, b.value? = some v → v.string? = some text →
    ∀ t p, (t, p) ∈ s.schema.patterns b.type → p.isMatch text
  alone : s.schema.implicitForRelation? b.type = none → ∀ role p, ¬ new role p
  edge : ∀ q, s.schema.implicitForRelation? b.type = some q → ∃ o a,
    s.MayHold o a ∧ ∀ role p, new role p ↔ (role = q.ownerRole ∧ p = o) ∨ (role = q.valueRole ∧ p = a)

/-- each instance is as its type wants it when there is one more that is -/
theorem Instances.store {new : TypeId → ThingId → Prop} (h : s.Sound first n) (hgr : s.graph.Grown graph' id b new)
    (hfit : s.Fits b new) : ({ s with graph := graph' } : State).Instances := by
  have hmay : ∀ {o a}, s.MayHold o a → ({ s with graph := graph' } : State).MayHold o a := by
    rintro o a ⟨bo, ba, hbo, hba, hown⟩
    exact ⟨bo, ba, hgr.kept hbo, hgr.kept hba, hown⟩
  refine ⟨?_, ?_, ?_, ?_, ?_, ?_, ?_⟩
  · intro x c hx
    rcases hgr.cases hx with ⟨rfl, rfl⟩ | ⟨-, hx⟩
    · exact Or.inl hfit.typed
    · exact h.instances.typed x c hx
  · intro x c d hx hd
    rcases hgr.cases hx with ⟨rfl, rfl⟩ | ⟨-, hx⟩
    · exact hfit.concrete d hd
    · exact h.instances.concrete x c d hx hd
  · intro x c v hx hv
    rcases hgr.cases hx with ⟨rfl, rfl⟩ | ⟨-, hx⟩
    · exact hfit.valued v hv
    · exact h.instances.valued x c v hx hv
  · intro x c v text hx hv htext
    rcases hgr.cases hx with ⟨rfl, rfl⟩ | ⟨-, hx⟩
    · exact hfit.matched v text hv htext
    · exact h.instances.matched x c v text hx hv htext
  · intro x c ro p hx hu hp
    rcases hgr.cases hx with ⟨rfl, rfl⟩ | ⟨hne, hx⟩
    · exact absurd (hgr.plays_new.1 hp) (hfit.alone hu.2 ro p)
    · exact h.instances.related x c ro p hx hu ((hgr.plays_old hne).1 hp)
  · intro x c ro p e hx hu hp he
    rcases hgr.cases hx with ⟨rfl, rfl⟩ | ⟨hne, hx⟩
    · exact absurd (hgr.plays_new.1 hp) (hfit.alone hu.2 ro p)
    · replace hp := (hgr.plays_old hne).1 hp
      obtain ⟨-, e', he'⟩ := h.ends_stored hp
      obtain rfl := Option.some.inj (he.symm.trans (hgr.kept he'))
      exact h.instances.played x c ro p e hx hu hp he'
  · intro x c q hx hq
    rcases hgr.cases hx with ⟨rfl, rfl⟩ | ⟨hne, hx⟩
    · obtain ⟨o, a, hm, hnew⟩ := hfit.edge q hq
      exact ⟨o, a, hmay hm, fun ro p => hgr.plays_new.trans (hnew ro p)⟩
    · obtain ⟨o, a, hm, hends⟩ := h.instances.edges x c q hx hq
      exact ⟨o, a, hmay hm, fun ro p => (hgr.plays_old hne).trans (hends ro p)⟩

/-- **A new instance.** -/
theorem Sound.store {new : TypeId → ThingId → Prop} (h : s.Sound first n) (hid : id.raw = first + UInt64.ofNat n)
    (hn : n < 2 ^ 64) (hgr : s.graph.Grown graph' id b new) (hfit : s.Fits b new) :
    ({ s with graph := graph' } : State).Sound first (n + 1) where
  coherent := h.coherent
  recorded := h.recorded
  agreeing := h.agreeing
  indexed := hgr.indexed
  closed := hgr.closed
  instances := .store h hgr hfit
  issuedTypes t d hd := (h.issuedTypes t d hd).mono (Nat.le_succ n)
  issuedThings x c hx := by
    rcases hgr.cases hx with ⟨rfl, rfl⟩ | ⟨-, hx⟩
    · obtain ⟨d, hd, -⟩ := hfit.typed
      refine ⟨?_, (h.issuedTypes _ d hd).mono (Nat.le_succ n)⟩
      rw [hid, issued_offset hn]
      exact Nat.lt_succ_self n
    · exact ⟨(h.issuedThings x c hx).1.mono (Nat.le_succ n), (h.issuedThings x c hx).2.mono (Nat.le_succ n)⟩

/-- a relation with two players can always be stored -/
theorem Sound.hold_total (h : s.Sound first n) (hid : ¬ s.graph.contains id) (ho : s.graph.contains o)
    (ha : s.graph.contains a) (t owner value : TypeId) : ∃ b₁ g₁ b₂ g₂,
      (s.graph.insert id ⟨t, .relation ∅⟩).2.addRolePlayer id owner o = .ok (b₁, g₁) ∧
      g₁.addRolePlayer id value a = .ok (b₂, g₂) ∧
      s.graph.Grown g₂ id ⟨t, .relation ∅⟩ fun ro p => (ro = owner ∧ p = o) ∨ (ro = value ∧ p = a) := by
  have h₀ := Graph.insert_alone (b := ⟨t, .relation ∅⟩) h.indexed h.closed hid (by simp [Thing.value?])
    (by simp [Thing.rolePlayers, Thing.rolePlayers?]) rfl
  obtain ⟨b₁, g₁, h₁⟩ := h₀.addRolePlayer_total rfl owner ho
  obtain ⟨b₂, g₂, h₂⟩ := (h₀.addRolePlayer h₁).addRolePlayer_total rfl value ha
  have hgr := (h₀.addRolePlayer h₁).addRolePlayer h₂
  simp only [false_or] at hgr
  exact ⟨b₁, g₁, b₂, g₂, h₁, h₂, hgr⟩

/-- **Holding.** The relation that records an ownership that is declared. -/
theorem Sound.hold (h : s.Sound first n) (hid : id.raw = first + UInt64.ofNat n) (hn : n < 2 ^ 64)
    (hq : s.schema.HasRecord q) (hm : s.MayHold o a) (hgr : s.graph.Grown graph' id ⟨q.relation, .relation ∅⟩
      fun ro p => (ro = q.ownerRole ∧ p = o) ∨ (ro = q.valueRole ∧ p = a)) :
    ({ s with graph := graph' } : State).Sound first (n + 1) := by
  obtain ⟨d, hback⟩ := h.recorded.backed q hq
  have hrel : s.schema.implicitForRelation? q.relation = some q := (h.recorded.byRelation _ q).2 ⟨hq, rfl⟩
  apply h.store hid hn hgr
  refine ⟨⟨_, hback.relation, rfl⟩, ?_, ?_, ?_, ?_, ?_⟩
  · intro e he
    rw [← Option.some.inj (hback.relation.symm.trans he)]
    exact Bool.false_ne_true
  · intro v hv
    simp [Thing.value?] at hv
  · intro v text hv
    simp [Thing.value?] at hv
  · intro hn' ro p
    rw [hrel] at hn'
    simp at hn'
  · intro q' hq'
    obtain rfl := Option.some.inj (hrel.symm.trans hq')
    exact ⟨o, a, hm, fun ro p => Iff.rfl⟩

/-! ## Other players, fewer instances -/

/-- a graph with no other instances, in which users' relations have players that they may have, and ownerships are kept -/
theorem Sound.regraph (h : s.Sound first n) (hi : graph'.Indexed) (hc : graph'.Closed)
    (hsub : ∀ x c, graph'.bare? x = some c → s.graph.bare? x = some c)
    (huser : ∀ r b role p, s.graph.bare? r = some b → s.UserRelation b → graph'.Plays r role p →
      s.graph.Plays r role p ∨ (s.schema.relatesRole b.type role ∧
        ∀ c, s.graph.bare? p = some c → s.schema.playsRole c.type role))
    (hedge : ∀ q r o a, s.Edge q r o a → graph'.contains r → graph'.contains o ∧ graph'.contains a ∧
      ∀ role p, graph'.Plays r role p ↔ s.graph.Plays r role p) :
    ({ s with graph := graph' } : State).Sound first n := by
  refine ⟨h.coherent, h.recorded, h.agreeing, hi, hc, ⟨?_, ?_, ?_, ?_, ?_, ?_, ?_⟩, h.issuedTypes, ?_⟩
  · exact fun x c hx => h.instances.typed x c (hsub x c hx)
  · exact fun x c d hx => h.instances.concrete x c d (hsub x c hx)
  · exact fun x c v hx => h.instances.valued x c v (hsub x c hx)
  · exact fun x c v text hx => h.instances.matched x c v text (hsub x c hx)
  · intro r b role p hb hu hp
    rcases huser r b role p (hsub r b hb) hu hp with hp | ⟨hrel, -⟩
    · exact h.instances.related r b role p (hsub r b hb) hu hp
    · exact hrel
  · intro r b role p c hb hu hp hc
    rcases huser r b role p (hsub r b hb) hu hp with hp | ⟨-, hplay⟩
    · exact h.instances.played r b role p c (hsub r b hb) hu hp (hsub p c hc)
    · exact hplay c (hsub p c hc)
  · intro r b q hb hq
    obtain ⟨o, a, he, ⟨bo, ba, hbo, hba, hown⟩, hends⟩ := h.instances.edge (hsub r b hb) hq
    obtain ⟨ho, ha, hplays⟩ := hedge q r o a he (Graph.contains_iff_bare?.2 ⟨b, hb⟩)
    have hkept : ∀ {x c}, graph'.contains x → s.graph.bare? x = some c → graph'.bare? x = some c := by
      intro x c hx hbx
      obtain ⟨c', hc'⟩ := Graph.contains_iff_bare?.1 hx
      rw [hc', ← hbx, hsub x c' hc']
    exact ⟨o, a, ⟨bo, ba, hkept ho hbo, hkept ha hba, hown⟩, fun role p => (hplays role p).trans (hends role p)⟩
  · exact fun x c hx => h.issuedThings x c (hsub x c hx)

/-- a relation of a user records no ownership -/
theorem Edge.not_user (he : s.Edge q r o a) (hb : s.graph.bare? r = some b) : ¬ s.UserRelation b := by
  intro hu
  obtain ⟨c, hc, hq⟩ := he.relation
  obtain rfl := Option.some.inj (hb.symm.trans hc)
  rw [hu.2] at hq
  simp at hq

/-- an edge has its relation and its ends -/
theorem Edge.stored (he : s.Edge q r o a) (h : s.Sound first n) :
    s.graph.contains r ∧ s.graph.contains o ∧ s.graph.contains a := by
  obtain ⟨b, hb, -⟩ := he.relation
  exact ⟨Graph.contains_iff_bare?.2 ⟨b, hb⟩, h.closed _ _ _ he.owner, h.closed _ _ _ he.held⟩

/-- **One more player** in a relation of a user, which may have it. -/
theorem Sound.join {added : Bool} (h : s.Sound first n) (hb : s.graph.bare? r = some b) (hu : s.UserRelation b)
    (hrel : s.schema.relatesRole b.type role) (hplay : ∀ c, s.graph.bare? p = some c → s.schema.playsRole c.type role)
    (ha : s.graph.addRolePlayer r role p = .ok (added, graph')) :
    ({ s with graph := graph' } : State).Sound first n := by
  obtain ⟨hi, hc, hbare, hplays⟩ := Graph.addRolePlayer_spec h.indexed h.closed ha
  refine h.regraph hi hc (fun x c hx => (hbare x).symm.trans hx) ?_ ?_
  · intro x c ro p' hx _ hp
    rcases (hplays x ro p').1 hp with hp | ⟨rfl, rfl, rfl⟩
    · exact Or.inl hp
    · obtain rfl := Option.some.inj (hb.symm.trans hx)
      exact Or.inr ⟨hrel, hplay⟩
  · intro q x o a he _
    obtain ⟨-, ho, ha⟩ := he.stored h
    refine ⟨(Graph.contains_congr hbare o).2 ho, (Graph.contains_congr hbare a).2 ha, fun ro p' => ?_⟩
    rw [hplays]
    apply or_iff_left
    rintro ⟨rfl, -, -⟩
    exact he.not_user hb hu

/-- **One player less** in a relation of a user. -/
theorem Sound.leave {removed : Bool} (h : s.Sound first n) (hb : s.graph.bare? r = some b) (hu : s.UserRelation b)
    (hr : s.graph.removeRolePlayer r role p = .ok (removed, graph')) :
    ({ s with graph := graph' } : State).Sound first n := by
  obtain ⟨hi, hc, hbare, hplays⟩ := Graph.removeRolePlayer_spec h.indexed h.closed hr
  refine h.regraph hi hc (fun x c hx => (hbare x).symm.trans hx) ?_ ?_
  · exact fun x c ro p' _ _ hp => Or.inl ((hplays x ro p').1 hp).1
  · intro q x o a he _
    obtain ⟨-, ho, ha⟩ := he.stored h
    refine ⟨(Graph.contains_congr hbare o).2 ho, (Graph.contains_congr hbare a).2 ha, fun ro p' => ?_⟩
    rw [hplays]
    apply and_iff_left
    rintro ⟨rfl, -, -⟩
    exact he.not_user hb hu

/-- a relation that records an ownership neither holds nor is held -/
theorem Edge.not_end {q' : ImplicitOwnership} {r' : ThingId} (he : s.Edge q' r' o a) (h : s.Sound first n)
    (hb : s.graph.bare? r = some b) (hq : s.schema.implicitForRelation? b.type = some q) : o ≠ r ∧ a ≠ r := by
  obtain ⟨hrec, hrel⟩ := (h.recorded.byRelation _ q).1 hq
  have hm : q.Made b.type := Or.inl hrel.symm
  obtain ⟨bo, ba, hbo, hba, hown⟩ := he.mayHold h.recorded h.instances
  obtain ⟨x, hx, c, hc, hdecl⟩ := Schema.ownership?_isSome.1 hown
  constructor
  · rintro rfl
    obtain rfl := Option.some.inj (hb.symm.trans hbo)
    exact (h.recorded.made_declares_nothing h.coherent hrec hm hx c).2 hdecl
  · rintro rfl
    obtain rfl := Option.some.inj (hb.symm.trans hba)
    obtain ⟨d, hd, howns⟩ := hdecl
    exact h.recorded.made_not_attribute h.coherent hrec hm hc ((h.coherent.refs x d hd).owns c howns)

theorem Edge.apart {q' : ImplicitOwnership} {r' o' a' : ThingId} (he : s.Edge q r o a) (h : s.Sound first n)
    (he' : s.Edge q' r' o' a') : o' ≠ r ∧ a' ≠ r := by
  obtain ⟨b, hb, hq⟩ := he.relation
  exact he'.not_end h hb hq

/-- **An instance less,** which neither holds nor is held. -/
theorem Sound.erase {th : Thing} (h : s.Sound first n) (hrm : s.graph.remove id = .ok (th, graph'))
    (hend : ∀ q r o a, s.Edge q r o a → o ≠ id ∧ a ≠ id) : ({ s with graph := graph' } : State).Sound first n := by
  obtain ⟨hi, hc, hbare, hplays⟩ := Graph.remove_spec h.indexed h.closed hrm
  have hcontains : ∀ {x}, graph'.contains x ↔ s.graph.contains x ∧ x ≠ id := Graph.contains_remove h.indexed h.closed hrm
  refine h.regraph hi hc ?_ ?_ ?_
  · intro x c hx
    rw [hbare] at hx
    split at hx
    · simp at hx
    · exact hx
  · exact fun x c ro p _ _ hp => Or.inl ((hplays x ro p).1 hp).1
  · intro q x o a he hx
    obtain ⟨ho, ha⟩ := hend q x o a he
    obtain ⟨-, hso, hsa⟩ := he.stored h
    refine ⟨hcontains.2 ⟨hso, ho⟩, hcontains.2 ⟨hsa, ha⟩, fun ro p => ?_⟩
    rw [hplays]
    refine and_iff_left_of_imp fun hp => ⟨?_, ?_⟩
    · exact (hcontains.1 hx).2
    · obtain ⟨b, hb, hq⟩ := he.relation
      obtain ⟨o', a', -, hends⟩ := h.instances.edges x b q hb hq
      rcases (hends ro p).1 hp with ⟨rfl, rfl⟩ | ⟨rfl, rfl⟩
      · exact ((he.ends_unique h.recorded h.instances ⟨he.relation, hp, he.held⟩).2.1) ▸ ho
      · exact ((he.ends_unique h.recorded h.instances ⟨he.relation, he.owner, hp⟩).2.2) ▸ ha

end State

end ConceptGraph
