/-
What is asked about instances and ownerships, and what a look at all that is stored finds.

Instances are found by the index of types, going down from a type; ownerships by the index of players, from either end.
A scan goes through the things one by one and uses no index.

- `scanInstances`, `scanEdges`: the things of a type or a subtype, and the ownerships that the things record.
- `mem_scanEdges`, `nodup_scanEdges`: a scan meets each ownership, and each of them once.
- `Scanned`: all that is asked is what a scan finds. `Sound.scanned`: so it is in a sound state where nothing is held
  twice.
- `Session.reads_scanned`: so it is in every state that a session gets to.
-/
import ConceptGraph.Proofs.Keys.KeptKeys

namespace ConceptGraph

open Std

namespace State

/-! ## Scans -/

variable {s : State} {first : UInt64} {n : Nat} {t : TypeId} {x : ThingId} {e : OwnershipEdge}

instance (s : State) (t : TypeId) (x : ThingId) : Decidable (s.IsInstance t x) :=
  decidable_of_iff ((s.graph.get? x).any fun th => s.schema.isSubtypeOf th.type t)
    (by simp only [IsInstance, Option.any_eq_true, Schema.isSubtypeOf_iff])

/-- the things of the type or of a subtype -/
def scanInstances (s : State) (t : TypeId) : List (ThingId × Thing) :=
  s.graph.things.toList.filter fun i => s.schema.isSubtypeOf i.2.type t

/-- the ownerships that a thing of the relation type of a record stands for: each of its owners has each attribute -/
def edgesAt (s : State) (i : ThingId × Thing) : List OwnershipEdge :=
  match s.schema.implicitForRelation? i.2.type with
  | some q => (i.2.playersOf q.ownerRole).flatMap fun o => (i.2.playersOf q.valueRole).map fun a => ⟨i.1, o, a⟩
  | none => []

/-- the ownerships that there are -/
def scanEdges (s : State) : List OwnershipEdge := s.graph.things.toList.flatMap s.edgesAt

/-- what is asked is what a scan finds -/
structure Scanned (s : State) : Prop where
  /-- the instances of a type are all things of it or of a subtype, each once -/
  instances : ∀ t d, s.schema.get? t = some d → (s.instances t).Perm (s.scanInstances t)
  distinct : ∀ t, ((s.instances t).map Prod.fst).Nodup
  hasInstances : ∀ t d, s.schema.get? t = some d → (s.hasInstances t ↔ s.scanInstances t ≠ [])
  /-- there is one ownership at most between two things, and it is found from either end -/
  single : (s.scanEdges.map fun e => (e.owner, e.held)).Nodup
  ownerships : ∀ o, (s.ownershipsOf o).Perm (s.scanEdges.filter (·.owner = o))
  owners : ∀ a, (s.ownersOf a).Perm (s.scanEdges.filter (·.held = a))
  between : ∀ o a r, s.ownershipBetween? o a = some r ↔ ⟨r, o, a⟩ ∈ s.scanEdges
  /-- what is held and who holds it are the two sides of one relation, and nothing is named twice -/
  sides : ∀ o a, a ∈ s.attributesOf o ↔ o ∈ s.holdersOf a
  through : ∀ o a, a ∈ s.attributesOf o ↔ ∃ r, ⟨r, o, a⟩ ∈ s.ownershipsOf o ∧ ⟨r, o, a⟩ ∈ s.ownersOf a ∧
    s.ownershipBetween? o a = some r
  attributes : ∀ o, (s.attributesOf o).Nodup
  holders : ∀ a, (s.holdersOf a).Nodup
  /-- what is held of a type, and who holds a value of a type, is the part of all that which fits -/
  heldUnder : ∀ o t, (s.heldUnder o t).Perm ((s.attributesOf o).filter fun a => s.IsInstance t a)
  ofValue : ∀ t k, (s.ownershipsOfValue t k).Perm
    (s.scanEdges.filter fun e => s.IsInstance t e.held ∧ s.valueKey? e.held = some k)

theorem mem_scanInstances {th : Thing} :
    (x, th) ∈ s.scanInstances t ↔ s.graph.get? x = some th ∧ t ∈ s.schema.supertypes th.type := by
  rw [scanInstances, List.mem_filter, ExtTreeMap.mem_toList_iff_getElem?_eq_some, Schema.isSubtypeOf_iff]
  rfl

theorem nodup_things (s : State) : (s.graph.things.toList.map Prod.fst).Nodup := by
  rw [ExtTreeMap.map_fst_toList_eq_keys]
  exact ExtTreeMap.nodup_keys

/-! ## Ownerships -/

theorem mem_edgesAt {i : ThingId × Thing} : e ∈ s.edgesAt i ↔ e.relation = i.1 ∧
    ∃ q, s.schema.implicitForRelation? i.2.type = some q ∧ e.owner ∈ i.2.playersOf q.ownerRole ∧
      e.held ∈ i.2.playersOf q.valueRole := by
  obtain ⟨r, o, a⟩ := e
  unfold edgesAt
  cases s.schema.implicitForRelation? i.2.type with
  | none => simp
  | some q =>
    simp only [List.mem_flatMap, List.mem_map, OwnershipEdge.mk.injEq, Option.some.injEq, exists_eq_left']
    constructor
    · rintro ⟨o', ho, a', ha, rfl, rfl, rfl⟩
      exact ⟨rfl, ho, ha⟩
    · rintro ⟨rfl, ho, ha⟩
      exact ⟨o, ho, a, ha, rfl, rfl, rfl⟩

/-- **A scan** meets the ownerships that are recorded, and nothing else. -/
theorem mem_scanEdges : e ∈ s.scanEdges ↔ ∃ q, s.Edge q e.relation e.owner e.held := by
  simp only [scanEdges, List.mem_flatMap, Prod.exists, ExtTreeMap.mem_toList_iff_getElem?_eq_some, mem_edgesAt,
    Thing.mem_playersOf]
  constructor
  · rintro ⟨id, th, hth, rfl, q, hq, ho, ha⟩
    have hget : s.graph.get? e.relation = some th := hth
    exact ⟨q, ⟨th.bare, Graph.bare?_of_get? hget, by rwa [Thing.bare_type]⟩, (Graph.plays_iff hget).2 ho,
      (Graph.plays_iff hget).2 ha⟩
  · rintro ⟨q, ⟨b, hb, hq⟩, ho, ha⟩
    obtain ⟨th, hth, rfl⟩ := Graph.get?_of_bare? hb
    rw [Thing.bare_type] at hq
    exact ⟨e.relation, th, hth, rfl, q, hq, (Graph.plays_iff hth).1 ho, (Graph.plays_iff hth).1 ha⟩

theorem nodup_playersOf (th : Thing) (role : TypeId) : (th.playersOf role).Nodup := by
  refine (th.nodup_rolePlayers.filter _).map_on fun p hp p' hp' heq => ?_
  obtain ⟨r, x⟩ := p
  obtain ⟨r', x'⟩ := p'
  simp only [List.mem_filter, beq_iff_eq] at hp hp' heq
  rw [hp.2, hp'.2, heq]

theorem nodup_edgesAt (s : State) (i : ThingId × Thing) : (s.edgesAt i).Nodup := by
  unfold edgesAt
  cases s.schema.implicitForRelation? i.2.type with
  | none => exact List.nodup_nil
  | some q =>
    refine List.nodup_flatMap.2 ⟨fun o _ => ?_, (nodup_playersOf i.2 q.ownerRole).imp fun {o o'} hne => ?_⟩
    · exact (nodup_playersOf i.2 q.valueRole).map fun a a' heq => (OwnershipEdge.mk.inj heq).2.2
    · intro e he he'
      obtain ⟨a, -, rfl⟩ := List.mem_map.1 he
      obtain ⟨a', -, heq⟩ := List.mem_map.1 he'
      exact hne (OwnershipEdge.mk.inj heq).2.1.symm

/-- **A scan** meets each ownership once. -/
theorem nodup_scanEdges (s : State) : s.scanEdges.Nodup := by
  refine List.nodup_flatMap.2 ⟨fun i _ => s.nodup_edgesAt i, ?_⟩
  refine (List.pairwise_map.1 s.nodup_things).imp fun {i j} hne e he he' => ?_
  exact hne ((mem_edgesAt.1 he).1.symm.trans (mem_edgesAt.1 he').1)

/-! ## What is asked -/

section Sound

variable (h : s.Sound first n) (honce : s.HoldsOnce)

include h

theorem mem_ownershipsOf_iff {o : ThingId} : e ∈ s.ownershipsOf o ↔ e ∈ s.scanEdges ∧ e.owner = o := by
  rw [mem_ownershipsOf h.recorded h.indexed h.instances, mem_scanEdges, and_comm]
  refine and_congr_left ?_
  rintro rfl
  rfl

theorem mem_ownersOf_iff {a : ThingId} : e ∈ s.ownersOf a ↔ e ∈ s.scanEdges ∧ e.held = a := by
  rw [mem_ownersOf h.recorded h.indexed h.instances, mem_scanEdges, and_comm]
  refine and_congr_left ?_
  rintro rfl
  rfl

theorem mem_attributesOf_iff {o a : ThingId} : a ∈ s.attributesOf o ↔ ∃ r, ⟨r, o, a⟩ ∈ s.scanEdges := by
  simp only [mem_attributesOf, mem_ownershipsOf_iff h]
  constructor
  · rintro ⟨⟨r, o', a'⟩, ⟨he, rfl⟩, rfl⟩
    exact ⟨r, he⟩
  · rintro ⟨r, he⟩
    exact ⟨⟨r, o, a⟩, ⟨he, rfl⟩, rfl⟩

theorem mem_holdersOf_iff {o a : ThingId} : o ∈ s.holdersOf a ↔ ∃ r, ⟨r, o, a⟩ ∈ s.scanEdges := by
  simp only [holdersOf, inOrder, List.mem_mergeSort, List.mem_map, mem_ownersOf_iff h]
  constructor
  · rintro ⟨⟨r, o', a'⟩, ⟨he, rfl⟩, rfl⟩
    exact ⟨r, he⟩
  · rintro ⟨r, he⟩
    exact ⟨⟨r, o, a⟩, ⟨he, rfl⟩, rfl⟩

theorem mem_ownershipsOfValue_iff {k : ValueKey} : e ∈ s.ownershipsOfValue t k ↔
    e ∈ s.scanEdges ∧ s.IsInstance t e.held ∧ s.valueKey? e.held = some k := by
  simp only [ownershipsOfValue, List.mem_flatMap, List.mem_filter, Prod.exists, mem_ownersOf_iff h,
    mem_instances h.coherent.indexed h.indexed]
  constructor
  · rintro ⟨a, th, ⟨⟨hth, ht⟩, hv⟩, he, rfl⟩
    obtain ⟨v, hv, hk⟩ := (Option.any_eq_true _ _).1 hv
    rw [beq_iff_eq] at hk
    exact ⟨he, ⟨th, hth, ht⟩, by simp [valueKey?, hth, hv, hk]⟩
  · rintro ⟨he, ⟨th, hth, ht⟩, hk⟩
    obtain ⟨v, hv, rfl⟩ := Option.map_eq_some_iff.1 hk
    rw [hth, Option.bind_some] at hv
    exact ⟨e.held, th, ⟨⟨hth, ht⟩, by simp [hv]⟩, he, rfl⟩

theorem nodup_ownershipsOfValue (t : TypeId) (k : ValueKey) : (s.ownershipsOfValue t k).Nodup := by
  refine List.nodup_flatMap.2 ⟨fun a _ => .of_map _ (nodup_ownersOf s a.1), ?_⟩
  have hids := List.pairwise_map.1 (nodup_instances h.coherent.indexed h.indexed t)
  refine (hids.filter _).imp fun {a b} hne e he he' => ?_
  exact hne (((mem_ownersOf_iff h).1 he).2.symm.trans ((mem_ownersOf_iff h).1 he').2)

theorem perm_instances (t : TypeId) : (s.instances t).Perm (s.scanInstances t) := by
  refine (List.perm_ext_iff_of_nodup (.of_map _ (nodup_instances h.coherent.indexed h.indexed t))
    ((List.Nodup.of_map _ s.nodup_things).filter _)).2 fun ⟨x, th⟩ => ?_
  rw [mem_instances h.coherent.indexed h.indexed, ← mem_scanInstances]
  rfl

theorem hasInstances_iff_scan (t : TypeId) : s.hasInstances t ↔ s.scanInstances t ≠ [] := by
  rw [hasInstances_iff h.coherent.indexed h.indexed]
  simp only [ne_eq, List.eq_nil_iff_forall_not_mem, not_forall, not_not, Prod.exists, mem_scanInstances]
  constructor
  · rintro ⟨id, b, hb, ht⟩
    obtain ⟨th, hth, rfl⟩ := Graph.get?_of_bare? hb
    exact ⟨id, th, hth, by rwa [Thing.bare_type] at ht⟩
  · rintro ⟨id, th, hth, ht⟩
    exact ⟨id, th.bare, Graph.bare?_of_get? hth, by rwa [Thing.bare_type]⟩

/-! ## What is asked where nothing is held twice -/

omit h in
include honce in
/-- between two things there is one ownership at most -/
theorem eq_of_ends {e e' : OwnershipEdge} (he : e ∈ s.scanEdges) (he' : e' ∈ s.scanEdges) (ho : e.owner = e'.owner)
    (ha : e.held = e'.held) : e = e' := by
  obtain ⟨q, hedge⟩ := mem_scanEdges.1 he
  obtain ⟨q', hedge'⟩ := mem_scanEdges.1 he'
  rw [← ho, ← ha] at hedge'
  obtain ⟨r, o, a⟩ := e
  obtain ⟨r', o', a'⟩ := e'
  exact congr (congrArg₂ OwnershipEdge.mk (honce q q' _ _ _ _ hedge hedge') ho) ha

include honce

theorem ownershipBetween?_iff {o a r : ThingId} : s.ownershipBetween? o a = some r ↔ ⟨r, o, a⟩ ∈ s.scanEdges := by
  constructor
  · intro hr
    exact mem_scanEdges.2 (ownershipBetween?_sound h.recorded h.indexed h.instances hr)
  · intro he
    obtain ⟨q, hedge⟩ := mem_scanEdges.1 he
    obtain ⟨r', hr'⟩ := Option.isSome_iff_exists.1
      ((ownershipBetween?_isSome h.recorded h.indexed h.instances).2 ⟨q, r, hedge⟩)
    obtain ⟨q', hedge'⟩ := ownershipBetween?_sound h.recorded h.indexed h.instances hr'
    rw [hr', honce q q' r r' o a hedge hedge']

theorem nodup_attributesOf (o : ThingId) : (s.attributesOf o).Nodup := by
  refine List.nodup_mergeSort.2 ((List.Nodup.of_map _ (nodup_ownershipsOf s o)).map_on fun e he e' he' heq => ?_)
  obtain ⟨he, ho⟩ := (mem_ownershipsOf_iff h).1 he
  obtain ⟨he', ho'⟩ := (mem_ownershipsOf_iff h).1 he'
  exact eq_of_ends honce he he' (ho.trans ho'.symm) heq

theorem nodup_holdersOf (a : ThingId) : (s.holdersOf a).Nodup := by
  refine List.nodup_mergeSort.2 ((List.Nodup.of_map _ (nodup_ownersOf s a)).map_on fun e he e' he' heq => ?_)
  obtain ⟨he, ha⟩ := (mem_ownersOf_iff h).1 he
  obtain ⟨he', ha'⟩ := (mem_ownersOf_iff h).1 he'
  exact eq_of_ends honce he he' heq (ha.trans ha'.symm)

/-- **All that is asked** is what a scan finds, in a sound state where nothing is held twice. -/
theorem Sound.scanned : s.Scanned where
  instances t _ _ := perm_instances h t
  distinct := nodup_instances h.coherent.indexed h.indexed
  hasInstances t _ _ := hasInstances_iff_scan h t
  single := by
    refine s.nodup_scanEdges.map_on fun e he e' he' heq => ?_
    obtain ⟨ho, ha⟩ := Prod.mk.inj heq
    exact eq_of_ends honce he he' ho ha
  ownerships o := by
    refine (List.perm_ext_iff_of_nodup (.of_map _ (nodup_ownershipsOf s o)) (s.nodup_scanEdges.filter _)).2 fun e => ?_
    rw [mem_ownershipsOf_iff h, List.mem_filter, decide_eq_true_iff]
  owners a := by
    refine (List.perm_ext_iff_of_nodup (.of_map _ (nodup_ownersOf s a)) (s.nodup_scanEdges.filter _)).2 fun e => ?_
    rw [mem_ownersOf_iff h, List.mem_filter, decide_eq_true_iff]
  between _ _ _ := ownershipBetween?_iff h honce
  sides o a := by rw [mem_attributesOf_iff h, mem_holdersOf_iff h]
  through o a := by
    simp only [mem_attributesOf_iff h, mem_ownershipsOf_iff h, mem_ownersOf_iff h, ownershipBetween?_iff h honce,
      and_true, and_self]
  attributes := nodup_attributesOf h honce
  holders := nodup_holdersOf h honce
  heldUnder o t := by
    refine (List.perm_ext_iff_of_nodup (nodup_heldUnder h honce o t) ((nodup_attributesOf h honce o).filter _)).2
      fun a => ?_
    rw [mem_heldUnder, List.mem_filter, decide_eq_true_iff]
    rfl
  ofValue t k := by
    refine (List.perm_ext_iff_of_nodup (nodup_ownershipsOfValue h t k) (s.nodup_scanEdges.filter _)).2 fun e => ?_
    rw [mem_ownershipsOfValue_iff h, List.mem_filter, decide_eq_true_iff]

end Sound

end State

namespace Session

variable {config : SessionConfig} {ids : Option IdSource} {journal : Option Journal} {s : Session} {es : List Event}

/-- **Reads are scans.** In the committed state and in the open transaction, whatever has been done, what is asked about
instances and ownerships is what a look at all things finds. -/
theorem reads_scanned (hs : start config ids journal = .ok s) (hfit : s.issued es < 2 ^ 64) :
    (s.run es).committed.Scanned ∧ ∀ t, (s.run es).writer = some t → t.working.Scanned := by
  have hstates := (run_sound hs hfit (List.prefix_refl _)).states.and (run_holdsOnce hs hfit)
  exact ⟨hstates.committed.1.scanned hstates.committed.2, fun t hw =>
    (hstates.writer t hw).working.1.scanned (hstates.writer t hw).working.2⟩

/-- an employee, as a person, with a nickname, as a name; and a tag on itself -/
def taggedTag : List Event :=
  [.begin, .perform (.putEntityType "person"), .perform (.putEntityType "employee"), .perform (.setSupertype ⟨7⟩ ⟨6⟩),
    .perform (.putAttributeType "name" (some .string)), .perform (.putAttributeType "nick" none),
    .perform (.setSupertype ⟨9⟩ ⟨8⟩), .perform (.has ⟨6⟩ ⟨8⟩), .perform (.putAttributeType "tag" (some .string)),
    .perform (.has ⟨13⟩ ⟨13⟩), .perform (.createEntity ⟨7⟩), .perform (.putAttribute ⟨9⟩ (.string "x")),
    .perform (.setHas ⟨17⟩ ⟨18⟩), .perform (.putAttribute ⟨13⟩ (.string "x")), .perform (.setHas ⟨20⟩ ⟨20⟩)]

set_option maxRecDepth 10000 in
theorem taggedTag_scanned : blank.issued taggedTag < 2 ^ 64 ∧ ∃ t, (blank.run taggedTag).writer = some t ∧
    t.working.scanEdges = [⟨⟨19⟩, ⟨17⟩, ⟨18⟩⟩, ⟨⟨21⟩, ⟨20⟩, ⟨20⟩⟩] ∧ t.working.heldUnder ⟨17⟩ ⟨8⟩ = [⟨18⟩] ∧
    t.working.holdersOf ⟨20⟩ = [⟨20⟩] ∧ t.working.Scanned := by
  have hfit : blank.issued taggedTag < 2 ^ 64 := by decide +kernel
  have hfound : (blank.run taggedTag).writer.map (fun t =>
      (t.working.scanEdges, t.working.heldUnder ⟨17⟩ ⟨8⟩, t.working.holdersOf ⟨20⟩)) =
        some ([⟨⟨19⟩, ⟨17⟩, ⟨18⟩⟩, ⟨⟨21⟩, ⟨20⟩, ⟨20⟩⟩], [⟨18⟩], [⟨20⟩]) := by decide +kernel
  obtain ⟨t, hw, ht⟩ := Option.map_eq_some_iff.1 hfound
  obtain ⟨hedges, hheld, hholders⟩ := by simpa only [Prod.mk.injEq] using ht
  exact ⟨hfit, t, hw, hedges, hheld, hholders, (reads_scanned start_testing hfit).2 t hw⟩

end Session

end ConceptGraph
