/-
Relations whose type is gone. An attribute type can be deleted with the relation type that records who holds its
attributes while there still are such relations, and nothing that is said of instances by their types is about these.

- `Stray`: such a relation. The roles of the record have gone along with its relation type.
- `StraysApart`: so nobody plays a role in a stray that is still defined, and who plays there records no ownership.
- `SchemaStep.straysApart`, `Regraphs.straysApart`: edits of the schema and of the graph keep strays apart.
- `Session.run_straysApart`: so they are in every state that a session gets to.
-/
import ConceptGraph.Proofs.Transaction.Alterations
import ConceptGraph.Proofs.Transaction.GraphEdits
import ConceptGraph.Proofs.Session.Runs

namespace ConceptGraph

open Std

namespace State

/-- a relation whose type is gone -/
def Stray (s : State) (r : ThingId) : Prop := ∃ b, s.graph.bare? r = some b ∧ s.schema.get? b.type = none

/-- what plays in strays plays a role that is gone as well, for good, and is no record of an ownership -/
structure StraysApart (first : UInt64) (n : Nat) (s : State) : Prop where
  issued : ∀ r role p, s.Stray r → s.graph.Plays r role p → Issued first n role.raw
  roles : ∀ r role p, s.Stray r → s.graph.Plays r role p → s.schema.get? role = none
  players : ∀ r role p c, s.Stray r → s.graph.Plays r role p → s.graph.bare? p = some c →
    s.schema.implicitForRelation? c.type = none

variable {s s' : State} {graph' : Graph} {first : UInt64} {n m k : Nat} {r p : ThingId} {role : TypeId}

/-- who is without a type records no ownership -/
theorem Stray.edge?_isNone (h : s.Stray r) (hr : s.schema.Recorded) : (s.edge? r).isNone := by
  obtain ⟨b, hb, hnone⟩ := h
  rw [Option.isNone_iff_eq_none, Option.eq_none_iff_forall_ne_some]
  rintro ⟨q, th⟩ hedge
  obtain ⟨hth, hq⟩ := edge?_eq_some.1 hedge
  obtain ⟨hrec, htype⟩ := (hr.byRelation _ q).1 hq
  obtain ⟨d, hback⟩ := hr.backed q hrec
  rw [Graph.bare?_of_get? hth] at hb
  rw [← Option.some.inj hb, Thing.bare_type, ← htype, hback.relation] at hnone
  simp at hnone

theorem StraysApart.mono (h : s.StraysApart first n) (hnm : n ≤ m) : s.StraysApart first m :=
  ⟨fun r role p hr hp => (h.issued r role p hr hp).mono hnm, h.roles, h.players⟩

/-- an empty keyspace has no relations -/
theorem straysApart_empty (schema : Schema) : (⟨schema, .empty⟩ : State).StraysApart first n := by
  have hnone : ∀ {r}, ¬ (⟨schema, .empty⟩ : State).Stray r := by
    rintro r ⟨b, hb, -⟩
    simp [bare?_empty] at hb
  exact ⟨fun r role p hr => absurd hr hnone, fun r role p hr => absurd hr hnone, fun r role p c hr => absurd hr hnone⟩

/-- in a relation that records an ownership, only the two roles of the record are played, and by no such relation -/
theorem Sound.record_players {b : Thing} {q : ImplicitOwnership} (h : s.Sound first n) (hb : s.graph.bare? r = some b)
    (hq : s.schema.implicitForRelation? b.type = some q) (hp : s.graph.Plays r role p) :
    (role = q.ownerRole ∨ role = q.valueRole) ∧
      ∀ c, s.graph.bare? p = some c → s.schema.implicitForRelation? c.type = none := by
  obtain ⟨o, a, hedge, -, hplays⟩ := h.instances.edge hb hq
  have hend := (hplays role p).1 hp
  refine ⟨hend.imp And.left And.left, fun c hc => Option.eq_none_iff_forall_ne_some.2 fun q' hq' => ?_⟩
  obtain ⟨ho, ha⟩ := hedge.not_end h hc hq'
  rcases hend with ⟨-, rfl⟩ | ⟨-, rfl⟩
  · exact ho rfl
  · exact ha rfl

/-- both roles of a record are defined -/
theorem Sound.record_roles {q : ImplicitOwnership} {t : TypeId} (h : s.Sound first n)
    (hq : s.schema.implicitForRelation? t = some q) (hrole : role = q.ownerRole ∨ role = q.valueRole) :
    ∃ d, s.schema.get? role = some d := by
  obtain ⟨d, hback⟩ := h.recorded.backed q ((h.recorded.byRelation t q).1 hq).1
  rcases hrole with rfl | rfl
  · exact ⟨_, hback.ownerRole⟩
  · exact ⟨_, hback.valueRole⟩

/-! ## Edits of the schema -/

section Schema

variable {lost : TypeId → Prop} (h : SchemaStep first n k lost s s')

include h

/-- a relation is a stray because it was one, or because its type has gone now -/
theorem SchemaStep.stray (hr : s'.Stray r) : s.Stray r ∨ ∃ b, s.graph.bare? r = some b ∧ lost b.type := by
  obtain ⟨b, hb, hnone⟩ := hr
  rw [h.graph] at hb
  by_cases hl : lost b.type
  · exact Or.inr ⟨b, hb, hl⟩
  · refine Or.inl ⟨b, hb, Option.eq_none_iff_forall_ne_some.2 fun d hd => ?_⟩
    obtain ⟨d', hd'⟩ := h.types r b hb hl ⟨d, hd⟩
    rw [hnone] at hd'
    simp at hd'

/-- what records no ownership does not do so later -/
theorem SchemaStep.no_record {c : Thing} (hc : s.graph.bare? p = some c)
    (hnone : s.schema.implicitForRelation? c.type = none) : s'.schema.implicitForRelation? c.type = none := by
  by_cases hl : lost c.type
  · exact (h.lost c.type hl).2
  · rw [h.records p c hc hl, hnone]

/-- **Strays stay apart** in an edit that brings back no role, and takes both roles with the relation type of a record. -/
theorem SchemaStep.straysApart (hs : s.Sound first n) (ha : s.StraysApart first n)
    (hgone : ∀ x, Issued first n x.raw → s.schema.get? x = none → s'.schema.get? x = none)
    (hlost : ∀ x, lost x → ∃ q, s.schema.implicitForRelation? x = some q ∧
      ∀ role, role = q.ownerRole ∨ role = q.valueRole → s'.schema.get? role = none) : s'.StraysApart first n := by
  refine ⟨fun r role p hr hp => ?_, fun r role p hr hp => ?_, fun r role p c hr hp hc => ?_⟩
  all_goals rw [h.graph] at hp
  · rcases h.stray hr with hr | ⟨b, hb, hl⟩
    · exact ha.issued r role p hr hp
    · obtain ⟨q, hq, -⟩ := hlost b.type hl
      obtain ⟨d, hd⟩ := hs.record_roles hq (hs.record_players hb hq hp).1
      exact hs.issuedTypes role d hd
  · rcases h.stray hr with hr | ⟨b, hb, hl⟩
    · exact hgone role (ha.issued r role p hr hp) (ha.roles r role p hr hp)
    · obtain ⟨q, hq, hroles⟩ := hlost b.type hl
      exact hroles role (hs.record_players hb hq hp).1
  · rw [h.graph] at hc
    refine h.no_record hc ?_
    rcases h.stray hr with hr | ⟨b, hb, hl⟩
    · exact ha.players r role p c hr hp hc
    · obtain ⟨q, hq, -⟩ := hlost b.type hl
      exact (hs.record_players hb hq hp).2 c hc

end Schema

/-! ## Edits of the graph -/

/-- **Strays stay apart** in an operation on instances, as nobody joins one. -/
theorem Regraphs.straysApart (h : Regraphs s graph') (hs : s.Sound first n) (ha : s.StraysApart first n) :
    ({ s with graph := graph' } : State).StraysApart first n := by
  -- a stray has been one, with whoever plays in it
  have hback : ∀ r role p, ({ s with graph := graph' } : State).Stray r → graph'.Plays r role p →
      s.Stray r ∧ s.graph.Plays r role p := by
    rintro r role p ⟨b, hb, hnone⟩ hp
    cases h with
    | made hgr =>
      rcases hgr.cases hb with ⟨rfl, -⟩ | ⟨hne, hb⟩
      · exact (hgr.plays_new.1 hp).elim
      · exact ⟨⟨b, hb, hnone⟩, (hgr.plays_old hne).1 hp⟩
    | held _ _ hdecl hq _ hgr =>
      rcases hgr.cases hb with ⟨rfl, rfl⟩ | ⟨hne, hb⟩
      · obtain ⟨d, hback⟩ := hs.recorded.backed _ (hs.recorded.implicitForOwned?.1 hq).1
        simp [hback.relation] at hnone
      · exact ⟨⟨b, hb, hnone⟩, (hgr.plays_old hne).1 hp⟩
    | @filled r' b' hb' hu hbare hplays =>
      have hb₀ := (hbare r).symm.trans hb
      rcases hplays r role p hp with hp | rfl
      · exact ⟨⟨b, hb₀, hnone⟩, hp⟩
      · obtain rfl := Option.some.inj (hb'.symm.trans hb₀)
        obtain ⟨d, hd⟩ := hu.1
        simp [hnone] at hd
    | fewer hf => exact ⟨⟨b, hf.bare r b hb, hnone⟩, hf.plays r role p hp⟩
  refine ⟨fun r role p hr hp => ?_, fun r role p hr hp => ?_, fun r role p c hr hp hc => ?_⟩
  all_goals obtain ⟨hr₀, hp₀⟩ := hback r role p hr hp
  · exact ha.issued r role p hr₀ hp₀
  · exact ha.roles r role p hr₀ hp₀
  · obtain ⟨-, c₀, hc₀⟩ := hs.ends_stored hp₀
    rw [h.kept hc₀ hc]
    exact ha.players r role p c₀ hr₀ hp₀ hc₀

end State

/-! ## Operations -/

/-- no edit of the schema brings back an element that is gone -/
theorem Alteration.gone_stays {s : State} {op : Operation} {schema' : Schema} {first : UInt64} {n : Nat} {x : TypeId}
    (h : Alteration (fun t => Issued first n t.raw) s op schema') (hx : Issued first n x.raw)
    (hnone : s.schema.get? x = none) : schema'.get? x = none := by
  cases h with
  | enriched hm => exact hm.declares.undefined x hx hnone
  | revised hd _ =>
    rw [Schema.get?_redefine, if_neg, hnone]
    rintro rfl
    simp [hnone] at hd
  | moved hm => rw [hm.get?, hnone]
  | removed hw _ _ =>
    refine Option.eq_none_iff_forall_ne_some.2 fun d hd => ?_
    obtain ⟨-, e, he, -⟩ := hw.get?.1 hd
    simp [hnone] at he

namespace Transaction

open State

variable {first : UInt64} {n : Nat} {t : Transaction} {op : Operation}

/-- what a deletion loses without having been asked to are relation types of records, and their roles go along -/
theorem roles_lost {r : Reply} (h : t.Sound first n) (hok : (t.perform op).1 = .ok r) {x : TypeId}
    (hx : op.Loses t.working x) : ∃ q, t.working.schema.implicitForRelation? x = some q ∧
      ∀ role, role = q.ownerRole ∨ role = q.valueRole → (t.perform op).2.working.schema.get? role = none := by
  cases op with
  | deleteType a =>
    obtain ⟨q, hq, rfl⟩ := hx
    have hrec := (h.working.recorded.implicitForOwned?.1 hq).1
    exact ⟨q, (h.working.recorded.byRelation _ q).2 ⟨hrec, rfl⟩,
      fun role hrole => (perform_without h hok).gone role (Or.inr ⟨q, hq, Or.inr hrole⟩)⟩
  | _ => exact hx.elim

/-- **Strays stay apart** in any operation, whatever comes of it. -/
theorem perform_straysApart (h : t.Sound first n) (hfit : n + drawn t (t.perform op).2 < 2 ^ 64)
    (ha : t.Everywhere fun s => s.StraysApart first n) : (t.perform op).2.Everywhere fun s => s.StraysApart first n := by
  refine perform_everywhere h hfit ha (fun r hop hok => ?_) fun graph' hr => hr.straysApart h.working ha.working
  obtain ⟨k, hstep, halt⟩ := perform_alters h hfit hop hok
  exact hstep.straysApart h.working ha.working (fun x => halt.gone_stays) fun x => roles_lost h hok

end Transaction

namespace Session

open State Transaction

variable {config : SessionConfig} {ids : Option IdSource} {journal : Option Journal} {first : UInt64} {n : Nat}
  {s : Session} {es : List Event}

/-- **One event** keeps strays apart. -/
theorem step_straysApart (h : s.Sound first n) (ha : s.Everywhere fun x => x.StraysApart first n) (e : Event)
    (hfit : n + s.drawnBy e < 2 ^ 64) : (s.step e).Everywhere fun x => x.StraysApart first (n + s.drawnBy e) := by
  refine (step_everywhere ha e ?_).imp fun x hx => hx.mono (Nat.le_add_right _ _)
  rintro op t rfl hw
  rw [drawnBy_perform hw] at hfit
  exact perform_straysApart (h.writer hw) hfit (ha.writer t hw)

theorem run_straysApart_from (h : s.Sound first n) (ha : s.Everywhere fun x => x.StraysApart first n) (es : List Event)
    (hfit : n + s.drawn es < 2 ^ 64) : (s.run es).Everywhere fun x => x.StraysApart first (n + s.drawn es) := by
  induction es generalizing s n with
  | nil => exact ha
  | cons e es ih =>
    rw [drawn, ← Nat.add_assoc] at hfit ⊢
    exact ih (step_sound h e (by omega)) (step_straysApart h ha e (by omega)) hfit

/-- **Strays are apart** in every state that a session gets to. -/
theorem run_straysApart (hs : start config ids journal = .ok s) (hfit : s.issued es < 2 ^ 64) :
    (s.run es).Everywhere fun x => x.StraysApart (firstId config ids) (s.issued es) := by
  obtain ⟨hc, hw, -⟩ := start_spec hs
  exact run_straysApart_from (start_sound hs) (.idle (hc ▸ straysApart_empty _) hw) es hfit

end Session

end ConceptGraph
