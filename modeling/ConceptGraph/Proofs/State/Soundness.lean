/-
What holds of a schema and its instances at all times.

- `Sound`: the schema is coherent and its records are records, the indexes are exact, identifiers have been handed out,
  the data types on a walk upwards agree, and each instance is as its type wants it (`Instances`).
- An instance whose type is gone is a relation, about which nothing more is said; any other instance is of the kind of
  its type, its value conforms, and each of its players may play in it. An instance of the relation type of a record has
  exactly one owner and one attribute, and some declaration lets the one hold the other.
- `mem_ownershipsOf`, `mem_ownersOf`: the edges found from either end are those that such relations record.
-/
import ConceptGraph.Proofs.Schema.OwnershipRecords

namespace ConceptGraph

open Std

/-- the kind of type that an instance is made of -/
def Thing.kind (th : Thing) : Kind :=
  match th.body with
  | .entity => .entity
  | .relation _ => .relation
  | .attribute _ => .attribute

namespace Thing

theorem kind_bare (th : Thing) : th.bare.kind = th.kind := by
  obtain ⟨t, b⟩ := th
  cases b <;> rfl

theorem isRelation_iff_kind {th : Thing} : th.isRelation ↔ th.kind = .relation := by
  obtain ⟨t, b⟩ := th
  cases b <;> simp [isRelation, rolePlayers?, kind]

theorem kind_of_value? {th : Thing} {v : Value} (h : th.value? = some v) : th.kind = .attribute := by
  obtain ⟨t, b⟩ := th
  cases b <;> simp_all [value?, kind]

theorem kind_ne_role (th : Thing) : th.kind ≠ .role := by
  obtain ⟨t, b⟩ := th
  cases b <;> simp [kind]

end Thing

/-- whether the number is one of the `n` that come first, counted from `first` -/
def Issued (first : UInt64) (n : Nat) (raw : UInt64) : Prop := (raw - first).toNat < n

theorem Issued.mono {first : UInt64} {n m : Nat} {raw : UInt64} (h : Issued first n raw) (hnm : n ≤ m) :
    Issued first m raw := Nat.lt_of_lt_of_le h hnm

theorem toNat_offset (first : UInt64) {k : Nat} (hk : k < 2 ^ 64) : (first + UInt64.ofNat k - first).toNat = k := by
  calc (first + UInt64.ofNat k - first).toNat = (UInt64.ofNat k + first - first).toNat := by rw [UInt64.add_comm]
    _ = (UInt64.ofNat k).toNat := by rw [UInt64.add_sub_cancel]
    _ = k := UInt64.toNat_ofNat_of_lt' hk

theorem issued_offset {first : UInt64} {k n : Nat} (hk : k < 2 ^ 64) :
    Issued first n (first + UInt64.ofNat k) ↔ k < n := by
  rw [Issued, toNat_offset first hk]

theorem next_offset (first : UInt64) (k : Nat) : first + UInt64.ofNat k + 1 = first + UInt64.ofNat (k + 1) := by
  rw [UInt64.ofNat_add, UInt64.add_assoc]
  rfl

namespace State

variable {s : State} {r o a id : ThingId} {b : Thing} {q : ImplicitOwnership}

/-- the relation `r` is of the record's type, and records that `o` holds `a` -/
structure Edge (s : State) (q : ImplicitOwnership) (r o a : ThingId) : Prop where
  relation : ∃ b, s.graph.bare? r = some b ∧ s.schema.implicitForRelation? b.type = some q
  owner : s.graph.Plays r q.ownerRole o
  held : s.graph.Plays r q.valueRole a

/-- a relation of a type that users have made -/
def UserRelation (s : State) (b : Thing) : Prop :=
  (∃ d, s.schema.get? b.type = some d) ∧ s.schema.implicitForRelation? b.type = none

/-- some declaration lets the owner hold the attribute -/
def MayHold (s : State) (o a : ThingId) : Prop := ∃ bo ba, s.graph.bare? o = some bo ∧ s.graph.bare? a = some ba ∧
  (s.schema.ownership? bo.type ba.type).isSome

/-- each instance is as its type wants it -/
structure Instances (s : State) : Prop where
  typed : ∀ id b, s.graph.bare? id = some b → s.schema.HasKind b.type b.kind ∨ (s.schema.get? b.type = none ∧ b.isRelation)
  concrete : ∀ id b d, s.graph.bare? id = some b → s.schema.get? b.type = some d → ¬ d.isAbstract
  valued : ∀ id b v, s.graph.bare? id = some b → b.value? = some v → s.schema.dataType? b.type = some v.dataType
  matched : ∀ id b v text, s.graph.bare? id = some b → b.value? = some v → v.string? = some text →
    ∀ t p, (t, p) ∈ s.schema.patterns b.type → p.isMatch text
  related : ∀ r b role p, s.graph.bare? r = some b → s.UserRelation b → s.graph.Plays r role p →
    s.schema.relatesRole b.type role
  played : ∀ r b role p c, s.graph.bare? r = some b → s.UserRelation b → s.graph.Plays r role p →
    s.graph.bare? p = some c → s.schema.playsRole c.type role
  edges : ∀ r b q, s.graph.bare? r = some b → s.schema.implicitForRelation? b.type = some q → ∃ o a,
    s.MayHold o a ∧ ∀ role p, s.graph.Plays r role p ↔ (role = q.ownerRole ∧ p = o) ∨ (role = q.valueRole ∧ p = a)

/-- what holds at all times, after `n` identifiers have been handed out from `first` on -/
structure Sound (first : UInt64) (n : Nat) (s : State) : Prop where
  coherent : s.schema.Coherent
  recorded : s.schema.Recorded
  agreeing : s.schema.Agreeing
  indexed : s.graph.Indexed
  closed : s.graph.Closed
  instances : s.Instances
  issuedTypes : ∀ t d, s.schema.get? t = some d → Issued first n t.raw
  issuedThings : ∀ id b, s.graph.bare? id = some b → Issued first n id.raw ∧ Issued first n b.type.raw

/-- an instance of a type below an attribute type is an attribute -/
theorem Sound.value?_of_below {first : UInt64} {n : Nat} {t : TypeId} (h : s.Sound first n)
    (hb : s.graph.bare? id = some b) (ht : t ∈ s.schema.supertypes b.type) (hk : s.schema.HasKind t .attribute) :
    ∃ v, b.value? = some v := by
  obtain ⟨d, -, hd, -⟩ := h.coherent.indexed.defined_of_mem ht
  obtain ⟨d', hd', hkind⟩ := (h.instances.typed id b hb).resolve_right fun hn => by simp [hd] at hn
  replace hkind : b.kind = .attribute := hkind.symm.trans (h.coherent.attribute_below hd' ht hk)
  obtain ⟨ty, body⟩ := b
  cases body with
  | «attribute» v => exact ⟨v, rfl⟩
  | _ => cases hkind

/-! ## Edges -/

theorem edge?_eq_some {th : Thing} : s.edge? r = some (q, th) ↔
    s.graph.get? r = some th ∧ s.schema.implicitForRelation? th.type = some q := by
  simp only [edge?, bind, Option.bind_eq_some_iff, pure, Option.some.injEq, Prod.mk.injEq]
  constructor
  · rintro ⟨th', hth, q', hq, rfl, rfl⟩
    exact ⟨hth, hq⟩
  · rintro ⟨hth, hq⟩
    exact ⟨th, hth, q, hq, rfl, rfl⟩

section Congr

variable {s' : State} (hg : s'.graph = s.graph) (hq : ∀ id b, s.graph.bare? id = some b →
  s'.schema.implicitForRelation? b.type = s.schema.implicitForRelation? b.type)

include hg hq

/-- edges are read off the relations and the table of records, and nothing else -/
theorem edge?_congr (r : ThingId) : s'.edge? r = s.edge? r := by
  unfold edge?
  rw [hg]
  cases hth : s.graph.get? r with
  | none => rfl
  | some th =>
    have := hq r th.bare (Graph.bare?_of_get? hth)
    rw [Thing.bare_type] at this
    simp only [Option.bind_eq_bind, Option.bind_some, this]

theorem ownershipsOf_congr (o : ThingId) : s'.ownershipsOf o = s.ownershipsOf o := by
  simp only [ownershipsOf, hg, edge?_congr hg hq]

theorem ownersOf_congr (a : ThingId) : s'.ownersOf a = s.ownersOf a := by
  simp only [ownersOf, hg, edge?_congr hg hq]

theorem ownershipBetween?_congr (o a : ThingId) : s'.ownershipBetween? o a = s.ownershipBetween? o a := by
  rw [ownershipBetween?, ownershipsOf_congr hg hq, ownershipBetween?]

end Congr

theorem edge?_isNone_of_user (hb : s.graph.bare? r = some b) (hu : s.UserRelation b) : (s.edge? r).isNone := by
  rw [Option.isNone_iff_eq_none, Option.eq_none_iff_forall_ne_some]
  rintro ⟨q, th⟩ he
  obtain ⟨hth, hq⟩ := edge?_eq_some.1 he
  obtain rfl := Option.some.inj (hb.symm.trans (Graph.bare?_of_get? hth))
  have := hu.2
  rw [Thing.bare_type, hq] at this
  simp at this

/-- an instance of the relation type of a record records an ownership, and has no players but its ends -/
theorem Instances.edge (hi : s.Instances) (hb : s.graph.bare? r = some b)
    (hq : s.schema.implicitForRelation? b.type = some q) : ∃ o a, s.Edge q r o a ∧ s.MayHold o a ∧
      ∀ role p, s.graph.Plays r role p ↔ (role = q.ownerRole ∧ p = o) ∨ (role = q.valueRole ∧ p = a) := by
  obtain ⟨o, a, hm, hplays⟩ := hi.edges r b q hb hq
  exact ⟨o, a, ⟨⟨b, hb, hq⟩, (hplays _ _).2 (Or.inl ⟨rfl, rfl⟩), (hplays _ _).2 (Or.inr ⟨rfl, rfl⟩)⟩, hm, hplays⟩

theorem Edge.ends_unique {o' a' : ThingId} (hrec : s.schema.Recorded) (hi : s.Instances) {q' : ImplicitOwnership}
    (h : s.Edge q r o a) (h' : s.Edge q' r o' a') : q = q' ∧ o = o' ∧ a = a' := by
  obtain ⟨b, hb, hq⟩ := h.relation
  obtain ⟨b', hb', hq'⟩ := h'.relation
  obtain rfl := Option.some.inj (hb.symm.trans hb')
  obtain rfl := Option.some.inj (hq.symm.trans hq')
  obtain ⟨d, hback⟩ := hrec.backed q ((hrec.byRelation _ _).1 hq).1
  have hne := hback.owner_ne_value
  obtain ⟨x, y, -, hxy⟩ := hi.edges r b q hb hq
  have howner : ∀ {p}, s.graph.Plays r q.ownerRole p → p = x := by
    intro p hp
    rcases (hxy _ _).1 hp with ⟨-, hp⟩ | ⟨hr, -⟩
    · exact hp
    · exact absurd hr hne
  have hheld : ∀ {p}, s.graph.Plays r q.valueRole p → p = y := by
    intro p hp
    rcases (hxy _ _).1 hp with ⟨hr, -⟩ | ⟨-, hp⟩
    · exact absurd hr.symm hne
    · exact hp
  exact ⟨rfl, (howner h.owner).trans (howner h'.owner).symm, (hheld h.held).trans (hheld h'.held).symm⟩

theorem Edge.mayHold (hrec : s.schema.Recorded) (hi : s.Instances) (h : s.Edge q r o a) : s.MayHold o a := by
  obtain ⟨b, hb, hq⟩ := h.relation
  obtain ⟨x, y, hedge, hm, -⟩ := hi.edge hb hq
  obtain ⟨-, rfl, rfl⟩ := h.ends_unique hrec hi hedge
  exact hm

/-- the only player of a role stands first -/
theorem head?_playersOf {th : Thing} {role : TypeId} (hth : s.graph.get? r = some th)
    (hu : ∀ p, s.graph.Plays r role p → p = a) (ha : s.graph.Plays r role a) : (th.playersOf role).head? = some a := by
  have hmem : ∀ p, p ∈ th.playersOf role ↔ s.graph.Plays r role p := by
    intro p
    rw [Thing.mem_playersOf, ← Graph.plays_iff hth]
  cases hl : th.playersOf role with
  | nil =>
    have := (hmem a).2 ha
    simp [hl] at this
  | cons p ps =>
    rw [hu p ((hmem p).1 (by simp [hl]))]
    rfl

/-- a relation is read as an ownership of the one that stands first as owner, and of what stands first as attribute -/
theorem edge_iff (hrec : s.schema.Recorded) (hi : s.Instances) : s.Edge q r o a ↔ ∃ th, s.edge? r = some (q, th) ∧
    (th.playersOf q.ownerRole).head? = some o ∧ (th.playersOf q.valueRole).head? = some a := by
  constructor
  · intro h
    obtain ⟨b, hb, hq⟩ := h.relation
    obtain ⟨th, hth, rfl⟩ := Graph.get?_of_bare? hb
    rw [Thing.bare_type] at hq
    refine ⟨th, edge?_eq_some.2 ⟨hth, hq⟩, head?_playersOf hth (fun p hp => ?_) h.owner,
      head?_playersOf hth (fun p hp => ?_) h.held⟩
    · exact ((⟨h.relation, hp, h.held⟩ : s.Edge q r p a).ends_unique hrec hi h).2.1
    · exact ((⟨h.relation, h.owner, hp⟩ : s.Edge q r o p).ends_unique hrec hi h).2.2
  · rintro ⟨th, hedge, ho, ha⟩
    obtain ⟨hth, hq⟩ := edge?_eq_some.1 hedge
    have hplays : ∀ {role p}, (th.playersOf role).head? = some p → s.graph.Plays r role p := by
      intro role p hp
      exact (Graph.plays_iff hth).2 (Thing.mem_playersOf.1 (List.mem_of_head? hp))
    exact ⟨⟨th.bare, Graph.bare?_of_get? hth, by rwa [Thing.bare_type]⟩, hplays ho, hplays ha⟩

/-- who plays in a relation that records an ownership stands first -/
theorem head?_of_plays (hrec : s.schema.Recorded) (hi : s.Instances) {th : Thing} {role : TypeId} {p : ThingId}
    (hedge : s.edge? r = some (q, th)) (hp : s.graph.Plays r role p) : (th.playersOf role).head? = some p := by
  obtain ⟨hth, hq⟩ := edge?_eq_some.1 hedge
  obtain ⟨o, a, he, -, hplays⟩ := hi.edge (Graph.bare?_of_get? hth) (by rwa [Thing.bare_type])
  obtain ⟨th', hedge', ho, ha⟩ := (edge_iff hrec hi).1 he
  obtain ⟨-, rfl⟩ := Prod.mk.inj (Option.some.inj (hedge.symm.trans hedge'))
  rcases (hplays role p).1 hp with ⟨rfl, rfl⟩ | ⟨rfl, rfl⟩
  · exact ho
  · exact ha

theorem mem_ownershipsOf (hrec : s.schema.Recorded) (hg : s.graph.Indexed) (hi : s.Instances) {e : OwnershipEdge} :
    e ∈ s.ownershipsOf o ↔ e.owner = o ∧ ∃ q, s.Edge q e.relation o e.held := by
  obtain ⟨r, o', a⟩ := e
  simp only [ownershipsOf, List.mem_filterMap, Graph.mem_relationsOf hg, bind, Option.bind_eq_some_iff, Prod.exists]
  constructor
  · rintro ⟨⟨mr, role⟩, hm, q, th, hedge, hcase⟩
    by_cases hrole : role = q.ownerRole
    · rw [if_pos hrole] at hcase
      obtain ⟨held, hheld, heq⟩ := Option.map_eq_some_iff.1 hcase
      obtain ⟨rfl, rfl, rfl⟩ := OwnershipEdge.mk.inj heq
      have howner := head?_of_plays hrec hi hedge (hrole ▸ hm)
      exact ⟨rfl, q, (edge_iff hrec hi).2 ⟨th, hedge, howner, hheld⟩⟩
    · simp [hrole] at hcase
  · rintro ⟨rfl, q, he⟩
    obtain ⟨th, hedge, -, hheld⟩ := (edge_iff hrec hi).1 he
    exact ⟨⟨r, q.ownerRole⟩, he.owner, q, th, hedge, by simp [hheld]⟩

theorem mem_ownersOf (hrec : s.schema.Recorded) (hg : s.graph.Indexed) (hi : s.Instances) {e : OwnershipEdge} :
    e ∈ s.ownersOf a ↔ e.held = a ∧ ∃ q, s.Edge q e.relation e.owner a := by
  obtain ⟨r, o, a'⟩ := e
  simp only [ownersOf, List.mem_filterMap, Graph.mem_relationsOf hg, bind, Option.bind_eq_some_iff, Prod.exists]
  constructor
  · rintro ⟨⟨mr, role⟩, hm, q, th, hedge, hcase⟩
    by_cases hrole : role = q.valueRole
    · rw [if_pos hrole] at hcase
      obtain ⟨owner, howner, heq⟩ := Option.map_eq_some_iff.1 hcase
      obtain ⟨rfl, rfl, rfl⟩ := OwnershipEdge.mk.inj heq
      have hheld := head?_of_plays hrec hi hedge (hrole ▸ hm)
      exact ⟨rfl, q, (edge_iff hrec hi).2 ⟨th, hedge, howner, hheld⟩⟩
    · simp [hrole] at hcase
  · rintro ⟨rfl, q, he⟩
    obtain ⟨th, hedge, howner, -⟩ := (edge_iff hrec hi).1 he
    exact ⟨⟨r, q.valueRole⟩, he.held, q, th, hedge, by simp [howner]⟩

theorem ownershipBetween?_isSome (hrec : s.schema.Recorded) (hg : s.graph.Indexed) (hi : s.Instances) :
    (s.ownershipBetween? o a).isSome ↔ ∃ q r, s.Edge q r o a := by
  rw [ownershipBetween?, Option.isSome_map, List.find?_isSome]
  constructor
  · rintro ⟨e, he, ha⟩
    obtain ⟨-, q, hedge⟩ := (mem_ownershipsOf hrec hg hi).1 he
    rw [beq_iff_eq] at ha
    exact ⟨q, e.relation, ha ▸ hedge⟩
  · rintro ⟨q, r, hedge⟩
    exact ⟨⟨r, o, a⟩, (mem_ownershipsOf hrec hg hi).2 ⟨rfl, q, hedge⟩, by simp⟩

theorem ownershipBetween?_sound (hrec : s.schema.Recorded) (hg : s.graph.Indexed) (hi : s.Instances)
    (h : s.ownershipBetween? o a = some r) : ∃ q, s.Edge q r o a := by
  obtain ⟨e, he, rfl⟩ := Option.map_eq_some_iff.1 h
  have ha := List.find?_some he
  rw [beq_iff_eq] at ha
  obtain ⟨-, q, hedge⟩ := (mem_ownershipsOf hrec hg hi).1 (List.mem_of_find?_eq_some he)
  exact ⟨q, ha ▸ hedge⟩

/-- relations are met once each in a walk through the places of an instance, if it is on one side of all of them -/
theorem nodup_edges (side : ImplicitOwnership → TypeId) {l : List Membership} {f : Membership → Option OwnershipEdge}
    (hl : l.Nodup) (hf : ∀ m e, f m = some e → e.relation = m.relation ∧
      ∃ q th, s.edge? m.relation = some (q, th) ∧ m.role = side q) :
    ((l.filterMap f).map OwnershipEdge.relation).Nodup := by
  rw [List.map_filterMap]
  refine List.Nodup.filterMap ?_ hl
  intro m m' r hr hr'
  obtain ⟨e, he, rfl⟩ := Option.map_eq_some_iff.1 hr
  obtain ⟨e', he', her⟩ := Option.map_eq_some_iff.1 hr'
  obtain ⟨hm, q, th, hq, hrole⟩ := hf m e he
  obtain ⟨hm', q', th', hq', hrole'⟩ := hf m' e' he'
  have hrel : m.relation = m'.relation := by rw [← hm, ← hm', her]
  rw [← hrel] at hq'
  obtain ⟨rfl, -⟩ := Prod.mk.inj (Option.some.inj (hq.symm.trans hq'))
  obtain ⟨r, role⟩ := m
  obtain ⟨r', role'⟩ := m'
  exact congrArg₂ Membership.mk hrel (hrole.trans hrole'.symm)

theorem nodup_ownershipsOf (s : State) (o : ThingId) : ((s.ownershipsOf o).map OwnershipEdge.relation).Nodup := by
  apply nodup_edges (s := s) ImplicitOwnership.ownerRole (Graph.nodup_relationsOf _ _)
  intro m e he
  simp only [bind, Option.bind_eq_some_iff, Prod.exists] at he
  obtain ⟨q, th, hq, he⟩ := he
  split at he
  · obtain ⟨a, -, rfl⟩ := Option.map_eq_some_iff.1 he
    exact ⟨rfl, q, th, hq, ‹_›⟩
  · simp at he

theorem nodup_ownersOf (s : State) (a : ThingId) : ((s.ownersOf a).map OwnershipEdge.relation).Nodup := by
  apply nodup_edges (s := s) ImplicitOwnership.valueRole (Graph.nodup_relationsOf _ _)
  intro m e he
  simp only [bind, Option.bind_eq_some_iff, Prod.exists] at he
  obtain ⟨q, th, hq, he⟩ := he
  split at he
  · obtain ⟨o, -, rfl⟩ := Option.map_eq_some_iff.1 he
    exact ⟨rfl, q, th, hq, ‹_›⟩
  · simp at he

/-- the relations that record what an instance holds and who holds it are met once each, unless it holds itself -/
theorem nodup_edges_iff (hrec : s.schema.Recorded) (hg : s.graph.Indexed) (hi : s.Instances) {x : ThingId} :
    ((s.ownershipsOf x ++ s.ownersOf x).map OwnershipEdge.relation).Nodup ↔ ¬ ∃ q r, s.Edge q r x x := by
  rw [List.map_append, List.nodup_append]
  constructor
  · rintro ⟨-, -, hdisj⟩ ⟨q, r, hedge⟩
    exact hdisj r (List.mem_map.2 ⟨⟨r, x, x⟩, (mem_ownershipsOf hrec hg hi).2 ⟨rfl, q, hedge⟩, rfl⟩) r
      (List.mem_map.2 ⟨⟨r, x, x⟩, (mem_ownersOf hrec hg hi).2 ⟨rfl, q, hedge⟩, rfl⟩) rfl
  · intro hno
    refine ⟨nodup_ownershipsOf s x, nodup_ownersOf s x, ?_⟩
    rintro r hr r' hr' rfl
    obtain ⟨e, he, her⟩ := List.mem_map.1 hr
    obtain ⟨e', he', her'⟩ := List.mem_map.1 hr'
    obtain ⟨-, q, hedge⟩ := (mem_ownershipsOf hrec hg hi).1 he
    obtain ⟨-, q', hedge'⟩ := (mem_ownersOf hrec hg hi).1 he'
    rw [her] at hedge
    rw [her'] at hedge'
    obtain ⟨-, -, ha⟩ := hedge.ends_unique hrec hi hedge'
    exact hno ⟨q, r, ha ▸ hedge⟩

theorem Sound.mono {first : UInt64} {n m : Nat} (h : s.Sound first n) (hnm : n ≤ m) : s.Sound first m where
  coherent := h.coherent
  recorded := h.recorded
  agreeing := h.agreeing
  indexed := h.indexed
  closed := h.closed
  instances := h.instances
  issuedTypes t d hd := (h.issuedTypes t d hd).mono hnm
  issuedThings id b hb := ⟨(h.issuedThings id b hb).1.mono hnm, (h.issuedThings id b hb).2.mono hnm⟩

end State

end ConceptGraph
