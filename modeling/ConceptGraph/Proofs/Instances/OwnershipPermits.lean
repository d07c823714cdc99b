/-
The relations that record ownerships, and whether the declarations for which they were made still permit them.

- `OwnershipsRecorded`: a relation of the type that records the ownership of an attribute type has two players, an owner
  and an attribute, each in its role; and some declaration lets the one hold the other. That is so at all times.
- `OwnershipsPermitted`: it is the attribute type of the record that the owner's type declares to own, itself or above
  it, and that the held attribute is of. An ownership is made under the declaration that is nearest at the time. When
  that is withdrawn, or an end is moved away, it is enough for the rules that there is any other declaration; the
  ownership stays with the relation under which it was made.
- `Displaces`: the operation withdraws the last declaration of that attribute type above an owner, or moves the owner or
  the attribute to where there is none.
- `Session.ownerships_permitted_iff`: ownerships stay permitted, if and only if no operation displaces any.
-/
import ConceptGraph.Proofs.Transaction.Alterations
import ConceptGraph.Proofs.Transaction.GraphEdits
import ConceptGraph.Proofs.Instances.OwnershipReads

namespace ConceptGraph

open Std

namespace Schema

/-- the owner's type plays the role and owns the attribute type, itself or above it, and the held one is below that -/
def Permits (s : Schema) (owned role owner held : TypeId) : Prop :=
  (∃ b ∈ s.supertypes owner, s.DeclaresPlays b role ∧ s.DeclaresOwns b owned) ∧ owned ∈ s.supertypes held

/-- the type owns the attribute type, itself or above it -/
def Owns (s : Schema) (t owned : TypeId) : Prop := ∃ b ∈ s.supertypes t, s.DeclaresOwns b owned

/-- with the owner's role goes the declaration -/
theorem Recorded.permits_iff {s : Schema} {q : ImplicitOwnership} {owner held : TypeId} (h : s.Recorded)
    (hq : s.HasRecord q) :
    s.Permits q.owned q.ownerRole owner held ↔ s.Owns owner q.owned ∧ q.owned ∈ s.supertypes held := by
  simp only [Permits, Owns, h.ownerPlays q _ hq, and_self]

end Schema

namespace State

/-- the relation has two players, one owner and one attribute, each in its role -/
def Joins (s : State) (q : ImplicitOwnership) (th owner held : Thing) : Prop := ∃ o a,
  th.rolePlayers.Perm [⟨q.ownerRole, o⟩, ⟨q.valueRole, a⟩] ∧ s.graph.get? o = some owner ∧
    s.graph.get? a = some held ∧ held.isAttribute

/-- each relation that records an ownership joins an owner and an attribute, which it may hold -/
def OwnershipsRecorded (s : State) : Prop := ∀ x q r th, s.schema.implicitForOwned? x = some q →
  s.graph.get? r = some th → th.type = q.relation →
    ∃ owner held, s.Joins q th owner held ∧ (s.schema.ownership? owner.type held.type).isSome

/-- each relation that records an ownership joins an owner and an attribute, and is permitted itself -/
def OwnershipsPermitted (s : State) : Prop := ∀ x q r th, s.schema.implicitForOwned? x = some q →
  s.graph.get? r = some th → th.type = q.relation →
    ∃ owner held, s.Joins q th owner held ∧ s.schema.Permits x q.ownerRole owner.type held.type

/-- each ownership is one of the attribute type of its record -/
def Licensed (s : State) : Prop := ∀ q r o a bo ba, s.Edge q r o a → s.graph.bare? o = some bo →
  s.graph.bare? a = some ba → s.schema.Owns bo.type q.owned ∧ q.owned ∈ s.schema.supertypes ba.type

variable {s : State} {first : UInt64} {n : Nat} {q : ImplicitOwnership} {r o a : ThingId} {th : Thing} {x : TypeId}

/-- an ownership is one of an attribute type that there is, between instances of types that there are -/
theorem Edge.defined {bo ba : Thing} (he : s.Edge q r o a) (h : s.Sound first n) (hbo : s.graph.bare? o = some bo)
    (hba : s.graph.bare? a = some ba) : (∃ d, s.schema.get? q.owned = some d) ∧
      (∃ d, s.schema.get? bo.type = some d) ∧ ∃ d, s.schema.get? ba.type = some d := by
  obtain ⟨b, hb, hq⟩ := he.relation
  obtain ⟨d, hback⟩ := h.recorded.backed q ((h.recorded.byRelation _ q).1 hq).1
  obtain ⟨bo', ba', hbo', hba', hown⟩ := he.mayHold h.recorded h.instances
  obtain rfl := Option.some.inj (hbo.symm.trans hbo')
  obtain rfl := Option.some.inj (hba.symm.trans hba')
  obtain ⟨x, hx, y, hy, -⟩ := Schema.ownership?_isSome.1 hown
  obtain ⟨e, -, he, -⟩ := h.coherent.indexed.defined_of_mem hx
  obtain ⟨f, -, hf, -⟩ := h.coherent.indexed.defined_of_mem hy
  exact ⟨⟨d, hback.owned⟩, ⟨e, he⟩, f, hf⟩

/-- **Two players.** A relation of the type of a record joins the ends of an ownership. -/
theorem Sound.joins (h : s.Sound first n) (hq : s.schema.implicitForOwned? x = some q) (hth : s.graph.get? r = some th)
    (ht : th.type = q.relation) : ∃ o a owner held, s.Edge q r o a ∧ s.graph.get? o = some owner ∧
      s.graph.get? a = some held ∧ s.Joins q th owner held ∧ (s.schema.ownership? owner.type held.type).isSome := by
  obtain ⟨hrec, -⟩ := h.recorded.implicitForOwned?.1 hq
  have hrel : s.schema.implicitForRelation? th.bare.type = some q :=
    (h.recorded.byRelation _ q).2 ⟨hrec, by rw [Thing.bare_type, ht]⟩
  obtain ⟨o, a, hedge, ⟨bo, ba, hbo, hba, hown⟩, hplays⟩ := h.instances.edge (Graph.bare?_of_get? hth) hrel
  obtain ⟨owner, howner, rfl⟩ := Graph.get?_of_bare? hbo
  obtain ⟨held, hheld, rfl⟩ := Graph.get?_of_bare? hba
  have hattr : held.isAttribute := by
    obtain ⟨c, -, b, hb, d, hd, howns⟩ := Schema.ownership?_isSome.1 hown
    obtain ⟨v, hv⟩ := h.value?_of_below hba hb ((h.coherent.refs c d hd).owns b howns)
    rw [Thing.isAttribute, ← Thing.bare_value?, hv]
    rfl
  obtain ⟨d, hback⟩ := h.recorded.backed q hrec
  refine ⟨o, a, owner, held, hedge, howner, hheld, ⟨o, a, ?_, howner, hheld, hattr⟩, by simpa using hown⟩
  refine (List.perm_ext_iff_of_nodup th.nodup_rolePlayers ?_).2 fun rp => ?_
  · simp [hback.owner_ne_value]
  · rw [← Graph.plays_iff hth, hplays]
    obtain ⟨role, p⟩ := rp
    simp

theorem Sound.ownershipsRecorded (h : s.Sound first n) : s.OwnershipsRecorded := by
  intro x q r th hq hth ht
  obtain ⟨-, -, owner, held, -, -, -, hj, hown⟩ := h.joins hq hth ht
  exact ⟨owner, held, hj, hown⟩

/-- whether ownerships are permitted can be read off their ends -/
theorem Sound.permitted_iff (h : s.Sound first n) : s.OwnershipsPermitted ↔ s.Licensed := by
  constructor
  · intro hall q r o a bo ba hedge hbo hba
    obtain ⟨b, hb, hq⟩ := hedge.relation
    obtain ⟨hrec, hrel⟩ := (h.recorded.byRelation _ q).1 hq
    obtain ⟨th, hth, rfl⟩ := Graph.get?_of_bare? hb
    rw [Thing.bare_type] at hq hrel
    obtain ⟨owner, held, ⟨o', a', hperm, ho', ha', -⟩, hp⟩ := hall q.owned q r th hrec hth hrel.symm
    have hedge' : s.Edge q r o' a' :=
      ⟨⟨th.bare, hb, by rwa [Thing.bare_type]⟩, (Graph.plays_iff hth).2 (hperm.mem_iff.2 (by simp)),
        (Graph.plays_iff hth).2 (hperm.mem_iff.2 (by simp))⟩
    obtain ⟨-, rfl, rfl⟩ := hedge.ends_unique h.recorded h.instances hedge'
    obtain rfl := Option.some.inj (hbo.symm.trans (Graph.bare?_of_get? ho'))
    obtain rfl := Option.some.inj (hba.symm.trans (Graph.bare?_of_get? ha'))
    rw [Thing.bare_type, Thing.bare_type]
    exact (h.recorded.permits_iff hrec).1 hp
  · intro hall x q r th hq hth ht
    obtain ⟨o, a, owner, held, hedge, ho, ha, hj, -⟩ := h.joins hq hth ht
    obtain ⟨hrec, rfl⟩ := h.recorded.implicitForOwned?.1 hq
    have hl := hall q r o a _ _ hedge (Graph.bare?_of_get? ho) (Graph.bare?_of_get? ha)
    rw [Thing.bare_type, Thing.bare_type] at hl
    exact ⟨owner, held, hj, (h.recorded.permits_iff hrec).2 hl⟩

end State

/-! ## One operation -/

/-- the operation withdraws the only declaration above `t` that it owns the attribute type, or moves it away from all of
them -/
def Operation.Disowns (op : Operation) (s : Schema) (t owned : TypeId) : Prop :=
  (∃ x, op = .unhas x owned ∧ ∀ b ∈ s.supertypes t, s.DeclaresOwns b owned → b = x) ∨
  ∃ x p, op = .setSupertype x p ∧ x ∈ s.supertypes t ∧ ¬ s.Owns p owned ∧
    ∀ b ∈ s.supertypes t, s.DeclaresOwns b owned → x ∉ s.supertypes b

/-- the operation moves `t` away from the attribute type that is above it -/
def Operation.Detaches (op : Operation) (s : Schema) (t owned : TypeId) : Prop :=
  ∃ x p, op = .setSupertype x p ∧ x ∈ s.supertypes t ∧ x ∉ s.supertypes owned ∧ owned ∉ s.supertypes p

/-- the operation is done, and takes from an ownership the declaration under which it is recorded -/
def Operation.Displaces (op : Operation) (t : Transaction) : Prop :=
  ∃ q r o a bo ba reply, (t.perform op).1 = .ok reply ∧ t.working.Edge q r o a ∧
    t.working.graph.bare? o = some bo ∧ t.working.graph.bare? a = some ba ∧
    (op.Disowns t.working.schema bo.type q.owned ∨ op.Detaches t.working.schema ba.type q.owned)

/-- the event is such an operation in the open transaction -/
def Event.Displaces (e : Event) (s : Session) : Prop :=
  ∃ op t, e = .perform op ∧ s.writer = some t ∧ op.Displaces t

namespace Alteration

open State

variable {s : State} {schema' : Schema} {old : TypeId → Prop} {op : Operation} {first : UInt64} {n : Nat}
  {t owned : TypeId} {d d' : TypeDef}

variable (ha : Alteration old s op schema') (h : s.Sound first n) (hs' : schema'.Indexed)
  (hd : schema'.get? t = some d)

include ha h hs' hd

/-- what is below the attribute type stays there, unless it is moved away -/
theorem below (hop : ¬ op.Detaches s.schema t owned) (hbelow : owned ∈ s.schema.supertypes t) :
    owned ∈ schema'.supertypes t := by
  have hs := h.coherent.indexed
  cases ha with
  | enriched hmore => exact hmore.declares.mem_supertypes hs hs' hbelow
  | revised hdt hr => rwa [supertypes_redefine hs hdt hr.label hr.kind]
  | @moved x p _ hm =>
    by_cases hx : x ∈ s.schema.supertypes t
    · refine (hm.mem_supertypes hs hs' hx).2 ?_
      by_contra hnot
      obtain ⟨hown, hp⟩ := not_or.1 hnot
      exact hop ⟨x, p, rfl, hx, fun hxo => hown ⟨hbelow, hxo⟩, hp⟩
    · rwa [← hm.supertypes_unmoved hs hs' fun hx' => hx ((hm.below_iff hs hs').1 hx')]
  | @removed x _ hw hleaf _ =>
    have hx : ¬ s.schema.Gone x t := fun hx => by simp [hw.gone t hx] at hd
    rwa [supertypes_without hw h hs' hleaf hx]

/-- what owns the attribute type keeps on doing so, unless that is withdrawn or it is moved away -/
theorem owns (hd' : schema'.get? owned = some d') (hop : ¬ op.Disowns s.schema t owned)
    (hown : s.schema.Owns t owned) : schema'.Owns t owned := by
  have hs := h.coherent.indexed
  cases ha with
  | enriched hmore =>
    obtain ⟨b, hb, e, he, hbo⟩ := hown
    obtain ⟨e', he', hle⟩ := hmore.declares.defs b e he
    exact ⟨b, hmore.declares.mem_supertypes hs hs' hb, e', he', hle.owns owned hbo⟩
  | @revised _ x e e' he hr =>
    -- a declaration that the operation does not withdraw
    obtain ⟨b, hb, hbo, hne⟩ : ∃ b ∈ s.schema.supertypes t, s.schema.DeclaresOwns b owned ∧
        (b = x → op ≠ .unhas x owned) := by
      by_cases hun : op = .unhas x owned
      · by_contra hnone
        refine hop (Or.inl ⟨x, hun, fun b hb hbo => ?_⟩)
        by_contra hbx
        exact hnone ⟨b, hb, hbo, fun hbx' => absurd hbx' hbx⟩
      · obtain ⟨b, hb, hbo⟩ := hown
        exact ⟨b, hb, hbo, fun _ => hun⟩
    refine ⟨b, by rwa [supertypes_redefine hs he hr.label hr.kind], ?_⟩
    obtain ⟨f, hf, hfo⟩ := hbo
    rw [Schema.DeclaresOwns, Schema.get?_redefine]
    by_cases hbx : b = x
    · subst hbx
      obtain rfl := Option.some.inj (he.symm.trans hf)
      exact ⟨e', if_pos rfl, (hr.owns owned).2 ⟨hfo, hne rfl⟩⟩
    · exact ⟨f, (if_neg hbx).trans hf, hfo⟩
  | @moved x p _ hm =>
    have hdecl : ∀ b, schema'.DeclaresOwns b owned ↔ s.schema.DeclaresOwns b owned := fun b => by
      rw [Schema.DeclaresOwns, hm.get?, Schema.DeclaresOwns]
    simp only [Schema.Owns, hdecl]
    by_cases hx : x ∈ s.schema.supertypes t
    · simp only [hm.mem_supertypes hs hs' hx]
      by_contra hnone
      refine hop (Or.inr ⟨x, p, rfl, hx, ?_, fun b hb hbo hxb => hnone ⟨b, Or.inl ⟨hb, hxb⟩, hbo⟩⟩)
      rintro ⟨b, hb, hbo⟩
      exact hnone ⟨b, Or.inr hb, hbo⟩
    · rwa [← hm.supertypes_unmoved hs hs' fun hx' => hx ((hm.below_iff hs hs').1 hx')]
  | @removed x _ hw hleaf _ =>
    have ht : ¬ s.schema.Gone x t := fun hx => by simp [hw.gone t hx] at hd
    have hne : owned ≠ x := fun hx => by simp [hw.gone owned (Or.inl hx)] at hd'
    obtain ⟨b, hb, hbo⟩ := hown
    refine ⟨b, by rwa [supertypes_without hw h hs' hleaf ht], ?_⟩
    exact (hw.declaresOwns b owned).2 ⟨not_gone_above h hleaf ht hb, hbo, hne⟩

end Alteration

namespace State

variable {s s' : State} {graph' : Graph} {first : UInt64} {n : Nat}

/-- an edit of the graph leaves ownerships as they are, and makes new ones as declared -/
theorem Regraphs.licensed (hr : Regraphs s graph') (h : s.Sound first n) (hl : s.Licensed) :
    ({ s with graph := graph' } : State).Licensed := by
  -- the ends of what has been there are what they were
  have hold : ∀ {q r o a bo ba}, s.Edge q r o a → graph'.bare? o = some bo → graph'.bare? a = some ba →
      s.schema.Owns bo.type q.owned ∧ q.owned ∈ s.schema.supertypes ba.type := by
    intro q r o a bo ba hedge hbo hba
    obtain ⟨co, ca, hco, hca, -⟩ := hedge.mayHold h.recorded h.instances
    rw [hr.kept hco hbo, hr.kept hca hba]
    exact hl q r o a co ca hedge hco hca
  intro q' r o' a' bo ba hedge hbo hba
  cases hr with
  | made hgr =>
    rcases hedge.of_grown hgr with hedge | ⟨-, -, hnew, -⟩
    · exact hold hedge hbo hba
    · exact hnew.elim
  | @held id o a tho tha decl q ho ha hdecl hq hnone hgr =>
    obtain ⟨hrec, hown⟩ := h.recorded.implicitForOwned?.1 hq
    rcases hedge.of_held h.recorded hrec hgr with hedge | ⟨rfl, rfl, rfl, rfl⟩
    · exact hold hedge hbo hba
    · obtain rfl := Option.some.inj (hbo.symm.trans (hgr.kept (Graph.bare?_of_get? ho)))
      obtain rfl := Option.some.inj (hba.symm.trans (hgr.kept (Graph.bare?_of_get? ha)))
      obtain ⟨howner, howned, -, hdeclares⟩ := Schema.ownershipWithout_sound hdecl
      rw [Thing.bare_type, Thing.bare_type, hown]
      exact ⟨⟨_, howner, hdeclares⟩, howned⟩
  | filled hb hu hbare hplays => exact hold (hedge.of_players hb hu hbare hplays) hbo hba
  | fewer hf => exact hold (hedge.of_fewer hf) hbo hba

end State

namespace Transaction

open State

variable {first : UInt64} {n : Nat} {t : Transaction} {op : Operation} {reply : Reply}

/-- **Ownerships** stay permitted in a schema operation that is done, unless it displaces one. -/
theorem edited_licensed (h : t.Sound first n) (hfit : n + drawn t (t.perform op).2 < 2 ^ 64) (hedit : op.editsSchema)
    (hok : (t.perform op).1 = .ok reply) (hl : t.working.Licensed) (hop : ¬ op.Displaces t) :
    (t.perform op).2.working.Licensed := by
  obtain ⟨k, hstep, ha⟩ := perform_alters h hfit hedit hok
  have hs' := hstep.sound.coherent.indexed
  intro q r o a bo ba hedge' hbo hba
  obtain ⟨⟨d, hd⟩, ⟨dt, hdt⟩, ⟨dh, hdh⟩⟩ := hedge'.defined hstep.sound hbo hba
  obtain ⟨hedge, -⟩ := hstep.edge_iff.1 hedge'
  rw [hstep.graph] at hbo hba
  obtain ⟨howns, hbelow⟩ := hl q r o a bo ba hedge hbo hba
  have hdisplaces : ∀ hcase, op.Displaces t := fun hcase => ⟨q, r, o, a, bo, ba, reply, hok, hedge, hbo, hba, hcase⟩
  exact ⟨ha.owns h.working hs' hdt hd (fun hd => hop (hdisplaces (Or.inl hd))) howns,
    ha.below h.working hs' hdh (fun hd => hop (hdisplaces (Or.inr hd))) hbelow⟩

theorem perform_licensed (h : t.Sound first n) (hfit : n + drawn t (t.perform op).2 < 2 ^ 64)
    (ht : t.Everywhere Licensed) (hop : ¬ op.Displaces t) : (t.perform op).2.Everywhere Licensed :=
  perform_everywhere h hfit ht (fun _ hedit hok => edited_licensed h hfit hedit hok ht.working hop)
    fun _ hr => hr.licensed h.working ht.working

/-! ### What is displaced -/

variable {y c : TypeId}

/-- the declaration is withdrawn, or left behind -/
theorem disowned (h : t.Sound first n) (hfit : n + drawn t (t.perform op).2 < 2 ^ 64)
    (hok : (t.perform op).1 = .ok reply) (hop : op.Disowns t.working.schema y c) :
    ¬ (t.perform op).2.working.schema.Owns y c := by
  have hs := h.working.coherent.indexed
  have hs' := (perform_sound h op hfit).working.coherent.indexed
  rintro ⟨b, hb, hbo⟩
  rcases hop with ⟨x, rfl, honly⟩ | ⟨x, p, rfl, hx, hp, hleft⟩
  · obtain ⟨d, d', hd, heq, hr⟩ := perform_unhas hok
    rw [heq, supertypes_redefine hs hd hr.label hr.kind] at hb
    obtain ⟨e, he, heo⟩ := hbo
    rw [heq, Schema.get?_redefine] at he
    split at he
    · obtain rfl := Option.some.inj he
      exact ((hr.owns c).1 heo).2 rfl
    · exact absurd (honly b hb ⟨e, he, heo⟩) ‹_›
  · have hm := perform_moves h hok
    rw [Schema.DeclaresOwns, hm.get?] at hbo
    rcases (hm.mem_supertypes hs hs' hx).1 hb with ⟨hb, hxb⟩ | hb
    · exact hleft b hb hbo hxb
    · exact hp ⟨b, hb, hbo⟩

theorem detached (h : t.Sound first n) (hfit : n + drawn t (t.perform op).2 < 2 ^ 64)
    (hok : (t.perform op).1 = .ok reply) (hop : op.Detaches t.working.schema y c) :
    c ∉ (t.perform op).2.working.schema.supertypes y := by
  obtain ⟨x, p, rfl, hx, hxc, hcp⟩ := hop
  intro hc
  rcases ((perform_moves h hok).mem_supertypes h.working.coherent.indexed
    (perform_sound h _ hfit).working.coherent.indexed hx).1 hc with ⟨-, hc⟩ | hc
  · exact hxc hc
  · exact hcp hc

/-- an ownership that has been displaced is there, and not permitted -/
theorem not_licensed_of_displaces (h : t.Sound first n) (hfit : n + drawn t (t.perform op).2 < 2 ^ 64)
    (hop : op.Displaces t) : ¬ (t.perform op).2.working.Licensed := by
  obtain ⟨q, r, o, a, bo, ba, reply, hok, hedge, hbo, hba, hcase⟩ := hop
  obtain ⟨hedit, hlost⟩ : op.editsSchema ∧ ∀ x, ¬ op.Loses t.working x := by
    rcases hcase with (⟨x, rfl, -⟩ | ⟨x, p, rfl, -⟩) | ⟨x, p, rfl, -⟩ <;> exact ⟨rfl, fun _ => False.elim⟩
  obtain ⟨k, -, -, -, hstep⟩ := (performed_of_ok h hfit hok).schemaDone hedit
  intro hall
  obtain ⟨howns, hbelow⟩ := hall q r o a bo ba (hstep.edge_iff.2 ⟨hedge, fun _ _ => hlost _⟩)
    (by rw [hstep.graph, hbo]) (by rw [hstep.graph, hba])
  rcases hcase with hd | hd
  · exact disowned h hfit hok hd howns
  · exact detached h hfit hok hd hbelow

end Transaction

/-! ## Runs -/

namespace Session

variable {config : SessionConfig} {ids : Option IdSource} {journal : Option Journal} {s : Session} {es : List Event}

/-- **Ownerships are recorded** by relations with two players at all times; and all of these are permitted in all states
along a run, if and only if no operation takes from an ownership the declaration under which it is recorded. -/
theorem ownerships_permitted_iff (hs : start config ids journal = .ok s) (hfit : s.issued es < 2 ^ 64) :
    (∀ p, p <+: es → (s.run p).Everywhere State.OwnershipsRecorded) ∧
      ((∀ p, p <+: es → (s.run p).Everywhere State.OwnershipsPermitted) ↔
        ∀ p e, p ++ [e] <+: es → ¬ e.Displaces (s.run p)) := by
  have hsound : ∀ p, p <+: es → (s.run p).Everywhere fun x => x.Sound (firstId config ids) (s.issued p) :=
    fun p hp => (run_sound hs hfit hp).states
  refine ⟨fun p hp => (hsound p hp).imp fun _ hx => hx.ownershipsRecorded, ?_⟩
  calc (∀ p, p <+: es → (s.run p).Everywhere State.OwnershipsPermitted)
      ↔ ∀ p, p <+: es → (s.run p).Everywhere State.Licensed := by
        refine forall₂_congr fun p hp => ⟨fun h => ?_, fun h => ?_⟩
        · exact ((hsound p hp).and h).imp fun _ hx => hx.1.permitted_iff.1 hx.2
        · exact ((hsound p hp).and h).imp fun _ hx => hx.1.permitted_iff.2 hx.2
    _ ↔ _ := by
        refine everywhere_iff hs hfit ?_ (fun _ _ _ ht hfit hall hop => Transaction.perform_licensed ht hfit hall hop)
          fun _ _ _ ht hfit hop => Transaction.not_licensed_of_displaces ht hfit hop
        rintro q r o a bo ba ⟨⟨b, hb, -⟩, -⟩
        simp [State.bare?_empty] at hb

/-- a person who holds a nick, as a name, and may have nicks by now -/
def nickHolder : List Event :=
  [.begin, .perform (.putEntityType "person"), .perform (.putAttributeType "name" (some .string)),
    .perform (.putAttributeType "nick" (some .string)), .perform (.setSupertype ⟨8⟩ ⟨7⟩), .perform (.has ⟨6⟩ ⟨7⟩),
    .perform (.createEntity ⟨6⟩), .perform (.putAttribute ⟨8⟩ (.string "x")), .perform (.setHas ⟨12⟩ ⟨13⟩),
    .perform (.has ⟨6⟩ ⟨8⟩)]

set_option maxRecDepth 10000 in
/-- nicks are no names any more, but this one is held as a name -/
theorem nickHolder_displaces : ∃ t, (blank.run nickHolder).writer = some t ∧
    (Operation.setSupertype ⟨8⟩ ⟨4⟩).Displaces t := by
  obtain ⟨t, hw, hok, ⟨th, hth, hq, howner, hheld⟩, ⟨o, ho, -⟩, a, ha, hnick, hname, hroot⟩ :
      ∃ t ∈ (blank.run nickHolder).writer, (t.perform (.setSupertype ⟨8⟩ ⟨4⟩)).1 = .ok .done ∧
        (∃ th ∈ t.working.graph.get? ⟨14⟩, t.working.schema.implicitForRelation? th.type =
          some ⟨⟨7⟩, ⟨9⟩, ⟨10⟩, ⟨11⟩⟩ ∧ ⟨⟨10⟩, ⟨12⟩⟩ ∈ th.rolePlayers ∧ ⟨⟨11⟩, ⟨13⟩⟩ ∈ th.rolePlayers) ∧
        (∃ o ∈ t.working.graph.get? ⟨12⟩, o.type = ⟨6⟩) ∧
        ∃ a ∈ t.working.graph.get? ⟨13⟩, ⟨8⟩ ∈ t.working.schema.supertypes a.type ∧
          ⟨8⟩ ∉ t.working.schema.supertypes ⟨7⟩ ∧ ⟨7⟩ ∉ t.working.schema.supertypes ⟨4⟩ := by decide +kernel
  have hedge : t.working.Edge ⟨⟨7⟩, ⟨9⟩, ⟨10⟩, ⟨11⟩⟩ ⟨14⟩ ⟨12⟩ ⟨13⟩ :=
    ⟨⟨th.bare, Graph.bare?_of_get? hth, by rwa [Thing.bare_type]⟩, (Graph.plays_iff hth).2 howner,
      (Graph.plays_iff hth).2 hheld⟩
  refine ⟨t, hw, _, _, _, _, o.bare, a.bare, .done, hok, hedge, Graph.bare?_of_get? ho, Graph.bare?_of_get? ha,
    Or.inr ⟨⟨8⟩, ⟨4⟩, rfl, by rwa [Thing.bare_type], hname, hroot⟩⟩

theorem nickHolder_recorded_only : blank.issued (nickHolder ++ [.perform (.setSupertype ⟨8⟩ ⟨4⟩)]) < 2 ^ 64 ∧
    (blank.run (nickHolder ++ [.perform (.setSupertype ⟨8⟩ ⟨4⟩)])).Everywhere State.OwnershipsRecorded ∧
    ¬ ∀ p, p <+: nickHolder ++ [.perform (.setSupertype ⟨8⟩ ⟨4⟩)] →
      (blank.run p).Everywhere State.OwnershipsPermitted := by
  have hfit : blank.issued (nickHolder ++ [.perform (.setSupertype ⟨8⟩ ⟨4⟩)]) < 2 ^ 64 := by decide +kernel
  obtain ⟨t, hw, hop⟩ := nickHolder_displaces
  obtain ⟨hrec, hiff⟩ := ownerships_permitted_iff start_testing hfit
  exact ⟨hfit, hrec _ (List.prefix_refl _), fun hall => hiff.1 hall nickHolder _ (List.prefix_refl _)
    ⟨_, t, rfl, hw, hop⟩⟩

theorem nickHolder_not_permitted : ∃ t, (blank.run (nickHolder ++ [.perform (.setSupertype ⟨8⟩ ⟨4⟩)])).writer = some t ∧
    ¬ t.working.OwnershipsPermitted := by
  have hfit : blank.issued (nickHolder ++ [.perform (.setSupertype ⟨8⟩ ⟨4⟩)]) < 2 ^ 64 := by decide +kernel
  obtain ⟨t, hw, hop⟩ := nickHolder_displaces
  have hw' : (blank.run (nickHolder ++ [.perform (.setSupertype ⟨8⟩ ⟨4⟩)])).writer =
      some (t.perform (.setSupertype ⟨8⟩ ⟨4⟩)).2 := by rw [run_concat, step_perform hw]
  refine ⟨_, hw', fun hall => ?_⟩
  exact Transaction.not_licensed_of_displaces (writer_sound start_testing hfit (List.prefix_refl _) hw)
    (fits_during hfit hw (List.prefix_refl _)) hop
    (((run_sound start_testing hfit (List.prefix_refl _)).writer hw').working.permitted_iff.1 hall)

end Session

end ConceptGraph
