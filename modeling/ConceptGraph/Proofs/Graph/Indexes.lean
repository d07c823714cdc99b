/-
The indexes of a graph say what its instances say.

An instance is seen here in two parts: `bare?`, what is stored under an identifier apart from players, and `Plays`, who
fills which role in which relation. Every edit is told by what it does to these two.

- `Indexed`: the three indexes are exact. `Closed`: every player is stored.
- `addRolePlayer_spec`, `detach_spec`, `insert_spec`, `remove_spec`: what an edit does, and that it keeps both.
- `Grown`: one instance more. It may be given its players later (`Grown.addRolePlayer`).
-/
import ConceptGraph.Graph.Basic
import ConceptGraph.Proofs.Core.Collections

namespace ConceptGraph

open Std

namespace Thing

/-- the instance without its players -/
def bare (th : Thing) : Thing :=
  match th.body with
  | .relation _ => { th with body := .relation ∅ }
  | _ => th

@[simp] theorem bare_type (th : Thing) : th.bare.type = th.type := by
  unfold bare
  split <;> rfl

@[simp] theorem bare_value? (th : Thing) : th.bare.value? = th.value? := by
  obtain ⟨t, b⟩ := th
  cases b <;> rfl

@[simp] theorem bare_isRelation (th : Thing) : th.bare.isRelation = th.isRelation := by
  obtain ⟨t, b⟩ := th
  cases b <;> rfl

theorem isRelation_iff {th : Thing} : th.isRelation ↔ ∃ ps, th.rolePlayers? = some ps := by
  rw [isRelation, Option.isSome_iff_exists]

theorem rolePlayers?_eq_some {th : Thing} {ps : ExtTreeSet RolePlayer} :
    th.rolePlayers? = some ps ↔ th.body = .relation ps := by
  obtain ⟨t, b⟩ := th
  cases b <;> simp [rolePlayers?]

theorem mem_rolePlayers {th : Thing} {p : RolePlayer} : p ∈ th.rolePlayers ↔ ∃ ps, th.rolePlayers? = some ps ∧ p ∈ ps := by
  unfold rolePlayers
  cases th.rolePlayers? with
  | none => simp
  | some ps => simp

theorem nodup_rolePlayers (th : Thing) : th.rolePlayers.Nodup := by
  unfold rolePlayers
  cases th.rolePlayers? with
  | none => exact List.nodup_nil
  | some ps => exact ExtTreeSet.distinct_toList.imp fun h he => h (compare_eq_iff_eq.2 he)

theorem mem_playersOf {th : Thing} {role : TypeId} {p : ThingId} :
    p ∈ th.playersOf role ↔ (⟨role, p⟩ : RolePlayer) ∈ th.rolePlayers := by
  simp only [playersOf, List.mem_map, List.mem_filter, beq_iff_eq]
  constructor
  · rintro ⟨⟨r, q⟩, ⟨hq, rfl⟩, rfl⟩
    exact hq
  · intro hp
    exact ⟨⟨role, p⟩, ⟨hp, rfl⟩, rfl⟩

end Thing

namespace Graph

/-- what is stored under the identifier, apart from players -/
def bare? (g : Graph) (id : ThingId) : Option Thing := (g.get? id).map Thing.bare

/-- in the relation `r`, the role is filled by `p` -/
def Plays (g : Graph) (r : ThingId) (role : TypeId) (p : ThingId) : Prop :=
  ∃ ps, g.playersOf? r = some ps ∧ (⟨role, p⟩ : RolePlayer) ∈ ps

/-- each index lists exactly what is stored -/
structure Indexed (g : Graph) : Prop where
  byType : ∀ t id, id ∈ g.byType.get t ↔ ∃ b, g.bare? id = some b ∧ b.type = t
  byValue : ∀ t k id, g.byValue[(⟨t, k⟩ : AttributeKey)]? = some id ↔
    ∃ b v, g.bare? id = some b ∧ b.type = t ∧ b.value? = some v ∧ v.key = k
  byPlayer : ∀ p m, m ∈ g.byPlayer.get p ↔ g.Plays m.relation m.role p

/-- players are stored -/
def Closed (g : Graph) : Prop := ∀ r role p, g.Plays r role p → g.contains p

/-! ## Reading -/

theorem contains_iff_get? {g : Graph} {id : ThingId} : g.contains id ↔ ∃ th, g.get? id = some th := contains_iff

theorem contains_iff_bare? {g : Graph} {id : ThingId} : g.contains id ↔ ∃ b, g.bare? id = some b := by
  rw [contains_iff_get?, bare?]
  constructor
  · rintro ⟨th, h⟩
    exact ⟨th.bare, by rw [h]; rfl⟩
  · rintro ⟨b, h⟩
    obtain ⟨th, hth, -⟩ := Option.map_eq_some_iff.1 h
    exact ⟨th, hth⟩

theorem bare?_of_not_contains {g : Graph} {id : ThingId} (h : ¬ g.contains id) : g.bare? id = none :=
  Option.eq_none_iff_forall_ne_some.2 fun b hb => h (contains_iff_bare?.2 ⟨b, hb⟩)

theorem bare?_of_get? {g : Graph} {id : ThingId} {th : Thing} (h : g.get? id = some th) : g.bare? id = some th.bare := by
  rw [bare?, h]
  rfl

theorem get?_of_bare? {g : Graph} {id : ThingId} {b : Thing} (h : g.bare? id = some b) :
    ∃ th, g.get? id = some th ∧ th.bare = b := Option.map_eq_some_iff.1 h

theorem plays_iff {g : Graph} {r : ThingId} {th : Thing} (h : g.get? r = some th) {role : TypeId} {p : ThingId} :
    g.Plays r role p ↔ (⟨role, p⟩ : RolePlayer) ∈ th.rolePlayers := by
  rw [Plays, playersOf?, h, Option.bind_some, Thing.mem_rolePlayers]

theorem Plays.relation {g : Graph} {r : ThingId} {role : TypeId} {p : ThingId} (h : g.Plays r role p) :
    ∃ b, g.bare? r = some b ∧ b.isRelation := by
  obtain ⟨ps, hps, -⟩ := h
  obtain ⟨th, hth, hr⟩ := Option.bind_eq_some_iff.1 hps
  exact ⟨th.bare, bare?_of_get? hth, by rw [Thing.bare_isRelation, Thing.isRelation, hr]; rfl⟩

theorem mem_ofType {g : Graph} (hi : g.Indexed) {t : TypeId} {id : ThingId} {th : Thing} :
    (id, th) ∈ g.ofType t ↔ g.get? id = some th ∧ th.type = t := by
  simp only [ofType, List.mem_filterMap, Multimap.mem_toList, hi.byType, Option.map_eq_some_iff, Prod.mk.injEq]
  constructor
  · rintro ⟨i, ⟨b, hb, rfl⟩, th', hth, rfl, rfl⟩
    obtain ⟨th'', h'', rfl⟩ := get?_of_bare? hb
    obtain rfl := Option.some.inj (hth.symm.trans h'')
    exact ⟨hth, (Thing.bare_type _).symm⟩
  · rintro ⟨h, rfl⟩
    exact ⟨id, ⟨th.bare, bare?_of_get? h, th.bare_type⟩, th, h, rfl, rfl⟩

theorem countOfType_pos {g : Graph} (hi : g.Indexed) {t : TypeId} :
    0 < g.countOfType t ↔ ∃ id b, g.bare? id = some b ∧ b.type = t := by
  rw [countOfType, Multimap.count_pos]
  exact exists_congr fun id => hi.byType t id

theorem mem_relationsOf {g : Graph} (hi : g.Indexed) {p : ThingId} {m : Membership} :
    m ∈ g.relationsOf p ↔ g.Plays m.relation m.role p := by
  rw [relationsOf, Multimap.mem_toList, hi.byPlayer]

theorem nodup_relationsOf (g : Graph) (p : ThingId) : (g.relationsOf p).Nodup := Multimap.nodup_toList

theorem findAttribute?_eq_some {g : Graph} (hi : g.Indexed) {t : TypeId} {v : Value} {id : ThingId} :
    g.findAttribute? t v = some id ↔ ∃ b w, g.bare? id = some b ∧ b.type = t ∧ b.value? = some w ∧ w.key = v.key :=
  hi.byValue t v.key id

theorem empty_indexed : empty.Indexed := by
  refine ⟨?_, ?_, ?_⟩
  · intro t id
    simp [empty, bare?, get?, Multimap.not_mem_empty]
  · intro t k id
    simp [empty, bare?, get?]
  · intro p m
    simp [empty, Plays, playersOf?, get?, Multimap.not_mem_empty]

theorem empty_closed : empty.Closed := by
  rintro r role p ⟨ps, hps, -⟩
  simp [empty, playersOf?, get?] at hps

/-! ## Players of one relation replaced -/

theorem mem_add {ix : PlayerIndex} {r p : ThingId} {rp : RolePlayer} {m : Membership} :
    m ∈ Multimap.get (ix.add r rp) p ↔ (m.relation = r ∧ rp = ⟨m.role, p⟩) ∨ m ∈ Multimap.get ix p := by
  rw [PlayerIndex.add, Multimap.mem_insert]
  obtain ⟨mr, role⟩ := m
  obtain ⟨role', p'⟩ := rp
  simp only [Membership.mk.injEq, RolePlayer.mk.injEq]
  constructor
  · intro hcase
    rcases hcase with ⟨rfl, rfl, rfl⟩ | h
    · exact Or.inl ⟨rfl, rfl, rfl⟩
    · exact Or.inr h
  · intro hcase
    rcases hcase with ⟨rfl, rfl, rfl⟩ | h
    · exact Or.inl ⟨rfl, rfl, rfl⟩
    · exact Or.inr h

theorem mem_drop {ix : PlayerIndex} {r p : ThingId} {rp : RolePlayer} {m : Membership} :
    m ∈ Multimap.get (ix.drop r rp) p ↔ m ∈ Multimap.get ix p ∧ ¬(m.relation = r ∧ rp = ⟨m.role, p⟩) := by
  rw [PlayerIndex.drop, Multimap.mem_remove]
  obtain ⟨mr, role⟩ := m
  obtain ⟨role', p'⟩ := rp
  simp only [Membership.mk.injEq, RolePlayer.mk.injEq]
  refine and_congr_right fun _ => not_congr ?_
  constructor
  · rintro ⟨rfl, rfl, rfl⟩
    exact ⟨rfl, rfl, rfl⟩
  · rintro ⟨rfl, rfl, rfl⟩
    exact ⟨rfl, rfl, rfl⟩

section SetPlayers

variable {g : Graph} {r : ThingId} {ps : ExtTreeSet RolePlayer} (hr : g.playersOf? r = some ps)

include hr

theorem bare?_setPlayers (qs : ExtTreeSet RolePlayer) (x : ThingId) : (g.setPlayers r qs).bare? x = g.bare? x := by
  obtain ⟨th, hth, hps⟩ := Option.bind_eq_some_iff.1 hr
  simp only [bare?, get?, setPlayers, lookup_modify]
  split
  · rename_i hx
    have hx' : g.things[x]? = some th := hx ▸ hth
    have hbody := Thing.rolePlayers?_eq_some.1 hps
    rw [hx']
    simp [Thing.bare, hbody]
  · rfl

theorem playersOf?_setPlayers (qs : ExtTreeSet RolePlayer) (x : ThingId) :
    (g.setPlayers r qs).playersOf? x = if x = r then some qs else g.playersOf? x := by
  obtain ⟨th, hth, -⟩ := Option.bind_eq_some_iff.1 hr
  simp only [playersOf?, get?, setPlayers, lookup_modify]
  split
  · rename_i hx
    have hx' : g.things[x]? = some th := hx ▸ hth
    simp [hx', Thing.rolePlayers?]
  · rfl

theorem plays_setPlayers (qs : ExtTreeSet RolePlayer) (x : ThingId) (role : TypeId) (p : ThingId) :
    (g.setPlayers r qs).Plays x role p ↔ if x = r then (⟨role, p⟩ : RolePlayer) ∈ qs else g.Plays x role p := by
  rw [Plays, playersOf?_setPlayers hr]
  split
  · simp
  · rfl

theorem plays_of_playersOf? (role : TypeId) (p : ThingId) : g.Plays r role p ↔ (⟨role, p⟩ : RolePlayer) ∈ ps := by
  rw [Plays, hr]
  simp

end SetPlayers

/-- what two graphs with the same instances have in common, players apart -/
theorem contains_congr {g g' : Graph} (h : ∀ x, g'.bare? x = g.bare? x) (x : ThingId) : g'.contains x ↔ g.contains x := by
  rw [contains_iff_bare?, contains_iff_bare?, h]

/-- the index of players is all that other players ask for -/
theorem Indexed.withPlayers {g g' : Graph} (hi : g.Indexed) (hbare : ∀ x, g'.bare? x = g.bare? x)
    (htype : g'.byType = g.byType) (hvalue : g'.byValue = g.byValue)
    (hplayer : ∀ p m, m ∈ g'.byPlayer.get p ↔ g'.Plays m.relation m.role p) : g'.Indexed := by
  refine ⟨fun t id => ?_, fun t k id => ?_, hplayer⟩
  · rw [htype, hbare, hi.byType]
  · rw [hvalue, hbare, hi.byValue]

/-! ## Players -/

theorem addRolePlayer_ok {g g' : Graph} {r p : ThingId} {role : TypeId} {added : Bool}
    (h : g.addRolePlayer r role p = .ok (added, g')) : g.contains p ∧ ∃ ps, g.playersOf? r = some ps ∧
      (((⟨role, p⟩ : RolePlayer) ∈ ps ∧ added = false ∧ g' = g) ∨ ((⟨role, p⟩ : RolePlayer) ∉ ps ∧ added = true ∧
        g' = { g.setPlayers r (ps.insert ⟨role, p⟩) with byPlayer := g.byPlayer.add r ⟨role, p⟩ })) := by
  unfold addRolePlayer at h
  by_cases hp : g.contains p
  · cases hr : g.playersOf? r with
    | none => simp [hp, hr] at h
    | some ps =>
      refine ⟨hp, ps, rfl, ?_⟩
      by_cases hm : (⟨role, p⟩ : RolePlayer) ∈ ps
      · simp [hp, hr, hm] at h
        exact Or.inl ⟨hm, h.1, h.2.symm⟩
      · simp [hp, hr, hm] at h
        exact Or.inr ⟨hm, h.1, h.2.symm⟩
  · simp [hp] at h

theorem playersOf?_of_bare? {g : Graph} {r : ThingId} {b : Thing} (hb : g.bare? r = some b) (hr : b.isRelation) :
    ∃ ps, g.playersOf? r = some ps := by
  obtain ⟨th, hth, rfl⟩ := get?_of_bare? hb
  rw [Thing.bare_isRelation] at hr
  obtain ⟨ps, hps⟩ := Thing.isRelation_iff.1 hr
  exact ⟨ps, by rw [playersOf?, hth, Option.bind_some, hps]⟩

/-- a relation that is there can have any instance that is there as a player -/
theorem addRolePlayer_total {g : Graph} {r p : ThingId} {b : Thing} (role : TypeId) (hb : g.bare? r = some b)
    (hr : b.isRelation) (hp : g.contains p) : ∃ added g', g.addRolePlayer r role p = .ok (added, g') := by
  obtain ⟨ps, hps⟩ := playersOf?_of_bare? hb hr
  unfold addRolePlayer
  simp only [hp, Bool.not_true, Bool.false_eq_true, if_false, hps]
  split <;> exact ⟨_, _, rfl⟩

/-- **One more player.** Only that role of that relation changes. -/
theorem addRolePlayer_spec {g g' : Graph} {r p : ThingId} {role : TypeId} {added : Bool} (hi : g.Indexed)
    (hc : g.Closed) (h : g.addRolePlayer r role p = .ok (added, g')) :
    g'.Indexed ∧ g'.Closed ∧ (∀ x, g'.bare? x = g.bare? x) ∧
      ∀ x ro q, g'.Plays x ro q ↔ g.Plays x ro q ∨ (x = r ∧ ro = role ∧ q = p) := by
  obtain ⟨hp, ps, hr, ⟨hmem, -, rfl⟩ | ⟨-, -, rfl⟩⟩ := addRolePlayer_ok h
  · refine ⟨hi, hc, fun _ => rfl, fun x ro q => ⟨Or.inl, ?_⟩⟩
    intro hcase
    rcases hcase with hx | ⟨rfl, rfl, rfl⟩
    · exact hx
    · exact (plays_of_playersOf? hr _ _).2 hmem
  · have hbare := bare?_setPlayers hr (ps.insert ⟨role, p⟩)
    have hplays : ∀ x ro q, (g.setPlayers r (ps.insert ⟨role, p⟩)).Plays x ro q ↔
        g.Plays x ro q ∨ (x = r ∧ ro = role ∧ q = p) := by
      intro x ro q
      rw [plays_setPlayers hr]
      split
      · rename_i hx
        rw [hx, plays_of_playersOf? hr, mem_set_insert, RolePlayer.mk.injEq]
        tauto
      · rename_i hx
        simp [hx]
    refine ⟨hi.withPlayers hbare rfl rfl ?_, ?_, hbare, hplays⟩
    · intro q m
      refine mem_add.trans (Iff.trans ?_ (hplays m.relation m.role q).symm)
      rw [hi.byPlayer, RolePlayer.mk.injEq, or_comm, eq_comm (a := role), eq_comm (a := p)]
    · intro x ro q hx
      apply (contains_congr hbare q).2
      rcases (hplays x ro q).1 hx with hx | ⟨-, -, rfl⟩
      · exact hc x ro q hx
      · exact hp

/-- one player less in one relation; players that are not stored stay as they are -/
theorem detach_spec {g : Graph} (hi : g.Indexed) (r : ThingId) (rp : RolePlayer) :
    (g.detach r rp).2.Indexed ∧ (∀ x, (g.detach r rp).2.bare? x = g.bare? x) ∧
      ∀ x ro q, (g.detach r rp).2.Plays x ro q ↔ g.Plays x ro q ∧ ¬(x = r ∧ rp = ⟨ro, q⟩) := by
  unfold detach
  cases hr : g.playersOf? r with
  | none =>
    refine ⟨hi, fun _ => rfl, fun x ro q => ⟨fun h => ⟨h, ?_⟩, And.left⟩⟩
    rintro ⟨rfl, -⟩
    obtain ⟨ps, hps, -⟩ := h
    simp [hr] at hps
  | some ps =>
    simp only []
    split
    · have hbare := bare?_setPlayers hr (ps.erase rp)
      have hplays : ∀ x ro q, (g.setPlayers r (ps.erase rp)).Plays x ro q ↔
          g.Plays x ro q ∧ ¬(x = r ∧ rp = ⟨ro, q⟩) := by
        intro x ro q
        rw [plays_setPlayers hr]
        split
        · rename_i hx
          rw [hx, plays_of_playersOf? hr, mem_set_erase, ne_eq, eq_comm (b := rp)]
          tauto
        · rename_i hx
          simp [hx]
      refine ⟨hi.withPlayers hbare rfl rfl fun q m => ?_, hbare, hplays⟩
      refine mem_drop.trans (Iff.trans ?_ (hplays m.relation m.role q).symm)
      rw [hi.byPlayer]
    · rename_i hm
      refine ⟨hi, fun _ => rfl, fun x ro q => ⟨fun h => ⟨h, ?_⟩, And.left⟩⟩
      rintro ⟨rfl, rfl⟩
      exact hm ((plays_of_playersOf? hr ro q).1 h)

/-- a relation that is there can be asked to be without any player -/
theorem removeRolePlayer_total {g : Graph} {r : ThingId} {b : Thing} (role : TypeId) (p : ThingId)
    (hb : g.bare? r = some b) (hr : b.isRelation) : ∃ removed g', g.removeRolePlayer r role p = .ok (removed, g') := by
  obtain ⟨ps, hps⟩ := playersOf?_of_bare? hb hr
  exact ⟨_, _, by rw [removeRolePlayer, hps]⟩

theorem removeRolePlayer_ok {g g' : Graph} {r p : ThingId} {role : TypeId} {removed : Bool}
    (h : g.removeRolePlayer r role p = .ok (removed, g')) : g.detach r ⟨role, p⟩ = (removed, g') := by
  unfold removeRolePlayer at h
  split at h
  · exact Except.ok.inj h
  · simp at h

/-- a player who was not there is taken out by changing nothing -/
theorem detach_of_false {g : Graph} {r : ThingId} {rp : RolePlayer} (h : (g.detach r rp).1 = false) :
    (g.detach r rp).2 = g := by
  unfold detach at h ⊢
  cases hps : g.playersOf? r with
  | none => rfl
  | some ps =>
    simp only [hps] at h ⊢
    split at h
    · simp at h
    · rw [if_neg ‹_›]

/-- **One player less.** Only that role of that relation changes. -/
theorem removeRolePlayer_spec {g g' : Graph} {r p : ThingId} {role : TypeId} {removed : Bool} (hi : g.Indexed)
    (hc : g.Closed) (h : g.removeRolePlayer r role p = .ok (removed, g')) :
    g'.Indexed ∧ g'.Closed ∧ (∀ x, g'.bare? x = g.bare? x) ∧
      ∀ x ro q, g'.Plays x ro q ↔ g.Plays x ro q ∧ ¬(x = r ∧ ro = role ∧ q = p) := by
  obtain ⟨hi', hbare, hplays⟩ := detach_spec hi r ⟨role, p⟩
  rw [removeRolePlayer_ok h] at hi' hbare hplays
  refine ⟨hi', ?_, hbare, ?_⟩
  · intro x ro q hx
    exact (contains_congr hbare q).2 (hc x ro q ((hplays x ro q).1 hx).1)
  · intro x ro q
    rw [hplays, RolePlayer.mk.injEq, eq_comm (a := role), eq_comm (a := p)]

/-! ## Instances -/

theorem mem_foldl_add {ps : List RolePlayer} {ix : PlayerIndex} {r p : ThingId} {m : Membership} :
    m ∈ Multimap.get (ps.foldl (fun ix p => PlayerIndex.add ix r p) ix) p ↔
      (m.relation = r ∧ (⟨m.role, p⟩ : RolePlayer) ∈ ps) ∨ m ∈ Multimap.get ix p := by
  induction ps generalizing ix with
  | nil => simp
  | cons q ps ih =>
    rw [List.foldl_cons, ih, mem_add, List.mem_cons, eq_comm (a := q)]
    tauto

theorem mem_foldl_drop {ps : List RolePlayer} {ix : PlayerIndex} {r p : ThingId} {m : Membership} :
    m ∈ Multimap.get (ps.foldl (fun ix p => PlayerIndex.drop ix r p) ix) p ↔
      m ∈ Multimap.get ix p ∧ ¬(m.relation = r ∧ (⟨m.role, p⟩ : RolePlayer) ∈ ps) := by
  induction ps generalizing ix with
  | nil => simp
  | cons q ps ih =>
    rw [List.foldl_cons, ih, mem_drop, List.mem_cons, eq_comm (a := q)]
    tauto

theorem record_of_find?_eq_none {ix : AttributeIndex} {t : TypeId} {v : Value} {id : ThingId} (h : ix.find? t v = none) :
    ix.record t v id = .inr (ExtTreeMap.insert ix ⟨t, v.key⟩ id) := by
  rw [AttributeIndex.record, h]

section Stored

variable {g g' : Graph} {id : ThingId} {th : Thing} (hs : g'.things = g.things.insert id th)

include hs

theorem bare?_stored (x : ThingId) : g'.bare? x = if x = id then some th.bare else g.bare? x := by
  simp only [bare?, get?, hs, lookup_insert]
  split <;> rfl

theorem plays_stored (hid : ¬ g.contains id) (x : ThingId) (ro : TypeId) (q : ThingId) :
    g'.Plays x ro q ↔ g.Plays x ro q ∨ (x = id ∧ (⟨ro, q⟩ : RolePlayer) ∈ th.rolePlayers) := by
  by_cases hx : x = id
  · subst hx
    have hget : g'.get? x = some th := by simp [get?, hs]
    have hnot : ¬ g.Plays x ro q := by
      intro h
      obtain ⟨b, hb, -⟩ := h.relation
      exact hid (contains_iff_bare?.2 ⟨b, hb⟩)
    rw [plays_iff hget]
    simp [hnot]
  · simp only [Plays, playersOf?, get?, hs, lookup_insert, hx, if_false, false_and, or_false]

theorem contains_stored (x : ThingId) : g'.contains x ↔ x = id ∨ g.contains x := by
  rw [contains_iff_bare?, contains_iff_bare?, bare?_stored hs]
  by_cases hx : x = id <;> simp [hx]

theorem type_stored (hid : ¬ g.contains id) (t : TypeId) (x : ThingId) : (∃ b, g'.bare? x = some b ∧ b.type = t) ↔
    (t = th.type ∧ x = id) ∨ ∃ b, g.bare? x = some b ∧ b.type = t := by
  rw [bare?_stored hs]
  by_cases hx : x = id
  · simp [hx, bare?_of_not_contains hid, eq_comm]
  · simp [hx]

theorem value_stored (hid : ¬ g.contains id) (t : TypeId) (k : ValueKey) (x : ThingId) :
    (∃ b v, g'.bare? x = some b ∧ b.type = t ∧ b.value? = some v ∧ v.key = k) ↔
      (x = id ∧ t = th.type ∧ ∃ v, th.value? = some v ∧ v.key = k) ∨
        ∃ b v, g.bare? x = some b ∧ b.type = t ∧ b.value? = some v ∧ v.key = k := by
  rw [bare?_stored hs]
  by_cases hx : x = id
  · simp [hx, bare?_of_not_contains hid, eq_comm]
  · simp [hx]

end Stored

theorem insert_eq {g : Graph} {id : ThingId} {th : Thing}
    (hv : ∀ v, th.value? = some v → g.findAttribute? th.type v = none) :
    g.insert id th = (id, {
      things := g.things.insert id th
      byType := g.byType.insert th.type id
      byValue := th.value?.elim g.byValue fun v => ExtTreeMap.insert g.byValue ⟨th.type, v.key⟩ id
      byPlayer := th.rolePlayers.foldl (fun ix p => PlayerIndex.add ix id p) g.byPlayer }) := by
  obtain ⟨t, body⟩ := th
  cases body with
  | entity => rfl
  | relation ps => rfl
  | «attribute» v => simp [insert, record_of_find?_eq_none (hv v rfl), Thing.value?, Thing.rolePlayers, Thing.rolePlayers?]

/-- an attribute whose value is held already is not stored again -/
theorem insert_interned {g : Graph} {id existing : ThingId} {th : Thing} {v : Value} (hv : th.value? = some v)
    (hfound : g.findAttribute? th.type v = some existing) : g.insert id th = (existing, g) := by
  obtain ⟨t, body⟩ := th
  cases body with
  | entity => cases hv
  | relation ps => cases hv
  | «attribute» w =>
    obtain rfl : w = v := Option.some.inj hv
    have hfound : g.byValue.find? t w = some existing := hfound
    simp [insert, AttributeIndex.record, hfound]

/-- either nothing is stored, or nothing that is there holds the value -/
theorem insert_same_or_new (g : Graph) (id : ThingId) (th : Thing) :
    (g.insert id th).2 = g ∨ ∀ v, th.value? = some v → g.findAttribute? th.type v = none := by
  by_cases hheld : ∃ v existing, th.value? = some v ∧ g.findAttribute? th.type v = some existing
  · obtain ⟨v, existing, hv, hfound⟩ := hheld
    exact Or.inl (congrArg Prod.snd (insert_interned hv hfound))
  · exact Or.inr fun v hv => Option.eq_none_iff_forall_ne_some.2 fun existing hfound => hheld ⟨v, existing, hv, hfound⟩

/-- the second graph has one instance more, which is `b` apart from players, and has the players in `new` -/
structure Grown (g g' : Graph) (id : ThingId) (b : Thing) (new : TypeId → ThingId → Prop) : Prop where
  indexed : g'.Indexed
  closed : g'.Closed
  fresh : ¬ g.contains id
  bare : ∀ x, g'.bare? x = if x = id then some b else g.bare? x
  plays : ∀ x ro p, g'.Plays x ro p ↔ g.Plays x ro p ∨ (x = id ∧ new ro p)

/-- **A new instance.** Nothing else is stored in its place, and an attribute holds a new value. -/
theorem insert_spec {g : Graph} {id : ThingId} {th : Thing} (hi : g.Indexed) (hc : g.Closed) (hid : ¬ g.contains id)
    (hv : ∀ v, th.value? = some v → g.findAttribute? th.type v = none)
    (hps : ∀ p ∈ th.rolePlayers, g.contains p.player) :
    g.Grown (g.insert id th).2 id th.bare fun ro q => (⟨ro, q⟩ : RolePlayer) ∈ th.rolePlayers := by
  have hthings : (g.insert id th).2.things = g.things.insert id th := by rw [insert_eq hv]
  have hplays := plays_stored hthings hid
  refine ⟨⟨?_, ?_, ?_⟩, ?_, hid, bare?_stored hthings, hplays⟩
  · intro t x
    rw [type_stored hthings hid, insert_eq hv, Multimap.mem_insert, hi.byType]
  · intro t k x
    rw [value_stored hthings hid, insert_eq hv, ← hi.byValue]
    cases hval : th.value? with
    | none => simp
    | some v =>
      have hfree : g.byValue[(⟨th.type, v.key⟩ : AttributeKey)]? = none := hv v hval
      simp only [Option.elim, lookup_insert, AttributeKey.mk.injEq, Option.some.injEq, exists_eq_left']
      by_cases hk : t = th.type ∧ k = v.key
      · simp [hk, hfree, eq_comm]
      · have hne : ¬ (x = id ∧ t = th.type ∧ v.key = k) := fun hx => hk ⟨hx.2.1, hx.2.2.symm⟩
        rw [if_neg hk, or_iff_right hne]
  · intro p m
    rw [hplays, insert_eq hv]
    apply mem_foldl_add.trans
    rw [hi.byPlayer, or_comm]
  · intro x ro q hx
    refine (contains_stored hthings q).2 (Or.inr ?_)
    rcases (hplays x ro q).1 hx with hx | ⟨-, hm⟩
    · exact hc x ro q hx
    · exact hps _ hm

/-- a new instance without players -/
theorem insert_alone {g : Graph} {id : ThingId} {b : Thing} (hi : g.Indexed) (hc : g.Closed) (hid : ¬ g.contains id)
    (hv : ∀ v, b.value? = some v → g.findAttribute? b.type v = none) (hno : b.rolePlayers = []) (hbb : b.bare = b) :
    g.Grown (g.insert id b).2 id b fun _ _ => False := by
  have h := insert_spec hi hc hid hv (by simp [hno])
  simpa only [hbb, hno, List.not_mem_nil] using h

namespace Grown

variable {g g' : Graph} {id x p : ThingId} {b c : Thing} {new : TypeId → ThingId → Prop} {ro : TypeId}

theorem ne_new (h : g.Grown g' id b new) (hx : g.bare? x = some c) : x ≠ id := by
  rintro rfl
  exact h.fresh (contains_iff_bare?.2 ⟨c, hx⟩)

theorem kept (h : g.Grown g' id b new) (hx : g.bare? x = some c) : g'.bare? x = some c := by
  rw [h.bare, if_neg (h.ne_new hx), hx]

theorem contains_kept (h : g.Grown g' id b new) (hx : g.contains x) : g'.contains x := by
  obtain ⟨c, hc⟩ := contains_iff_bare?.1 hx
  exact contains_iff_bare?.2 ⟨c, h.kept hc⟩

/-- an instance is the new one, or has been there -/
theorem cases (h : g.Grown g' id b new) (hx : g'.bare? x = some c) :
    (x = id ∧ c = b) ∨ (x ≠ id ∧ g.bare? x = some c) := by
  rw [h.bare] at hx
  by_cases hxid : x = id
  · rw [if_pos hxid] at hx
    exact Or.inl ⟨hxid, (Option.some.inj hx).symm⟩
  · rw [if_neg hxid] at hx
    exact Or.inr ⟨hxid, hx⟩

theorem plays_old (h : g.Grown g' id b new) (hx : x ≠ id) : g'.Plays x ro p ↔ g.Plays x ro p := by
  rw [h.plays]
  exact or_iff_left fun hnew => hx hnew.1

theorem plays_new (h : g.Grown g' id b new) : g'.Plays id ro p ↔ new ro p := by
  rw [h.plays, or_iff_right, and_iff_right rfl]
  intro hp
  obtain ⟨c, hc, -⟩ := hp.relation
  exact h.ne_new hc rfl

/-- a new relation can have any instance that was there as a player -/
theorem addRolePlayer_total (h : g.Grown g' id b new) (hb : b.isRelation) (ro : TypeId) (hp : g.contains p) :
    ∃ added g'', g'.addRolePlayer id ro p = .ok (added, g'') := by
  apply Graph.addRolePlayer_total ro _ hb (h.contains_kept hp)
  rw [h.bare, if_pos rfl]

theorem addRolePlayer {added : Bool} {g'' : Graph} (h : g.Grown g' id b new)
    (ha : g'.addRolePlayer id ro p = .ok (added, g'')) : g.Grown g'' id b fun r q => new r q ∨ (r = ro ∧ q = p) := by
  obtain ⟨hi, hc, hbare, hplays⟩ := addRolePlayer_spec h.indexed h.closed ha
  refine ⟨hi, hc, h.fresh, fun x => (hbare x).trans (h.bare x), fun x r q => ?_⟩
  rw [hplays, h.plays, or_assoc, ← and_or_left]

end Grown

/-! ## Removal -/

/-- the players taken out of the relations that are listed -/
theorem foldl_detach_spec {g : Graph} (hi : g.Indexed) (id : ThingId) (ms : List Membership) :
    (ms.foldl (fun g m => (g.detach m.relation ⟨m.role, id⟩).2) g).Indexed ∧
      (∀ x, (ms.foldl (fun g m => (g.detach m.relation ⟨m.role, id⟩).2) g).bare? x = g.bare? x) ∧
      ∀ x ro q, (ms.foldl (fun g m => (g.detach m.relation ⟨m.role, id⟩).2) g).Plays x ro q ↔
        g.Plays x ro q ∧ ¬(q = id ∧ (⟨x, ro⟩ : Membership) ∈ ms) := by
  induction ms generalizing g with
  | nil => exact ⟨hi, fun _ => rfl, fun x ro q => by simp⟩
  | cons m ms ih =>
    obtain ⟨hi', hbare, hplays⟩ := detach_spec hi m.relation ⟨m.role, id⟩
    obtain ⟨hi'', hbare', hplays'⟩ := ih hi'
    refine ⟨hi'', fun x => (hbare' x).trans (hbare x), fun x ro q => ?_⟩
    rw [List.foldl_cons, hplays', hplays, List.mem_cons, RolePlayer.mk.injEq]
    obtain ⟨mr, mrole⟩ := m
    rw [Membership.mk.injEq, eq_comm (a := mrole), eq_comm (a := id)]
    tauto

section Erased

variable {g g' : Graph} {id : ThingId} (hs : g'.things = g.things.erase id)

include hs

theorem bare?_erased (x : ThingId) : g'.bare? x = if x = id then none else g.bare? x := by
  simp only [bare?, get?, hs, lookup_erase]
  split <;> rfl

theorem plays_erased (x : ThingId) (ro : TypeId) (q : ThingId) : g'.Plays x ro q ↔ g.Plays x ro q ∧ x ≠ id := by
  by_cases hx : x = id
  · simp [Plays, playersOf?, get?, hs, hx]
  · simp only [Plays, playersOf?, get?, hs, lookup_erase, hx, if_false, ne_eq, not_false_eq_true, and_true]

theorem type_erased (t : TypeId) (x : ThingId) : (∃ b, g'.bare? x = some b ∧ b.type = t) ↔
    (∃ b, g.bare? x = some b ∧ b.type = t) ∧ x ≠ id := by
  rw [bare?_erased hs]
  by_cases hx : x = id <;> simp [hx]

theorem value_erased (t : TypeId) (k : ValueKey) (x : ThingId) :
    (∃ b v, g'.bare? x = some b ∧ b.type = t ∧ b.value? = some v ∧ v.key = k) ↔
      (∃ b v, g.bare? x = some b ∧ b.type = t ∧ b.value? = some v ∧ v.key = k) ∧ x ≠ id := by
  rw [bare?_erased hs]
  by_cases hx : x = id <;> simp [hx]

end Erased

theorem unindex_eq (g : Graph) (id : ThingId) (th : Thing) : g.unindex id th = {
    things := g.things
    byType := g.byType.remove th.type id
    byValue := th.value?.elim g.byValue fun v => g.byValue.erase ⟨th.type, v.key⟩
    byPlayer := th.rolePlayers.foldl (fun ix p => PlayerIndex.drop ix id p) g.byPlayer } := by
  obtain ⟨t, body⟩ := th
  cases body <;> rfl

/-- what an instance has put into the indexes itself is gone -/
theorem unindex_spec {g : Graph} (hi : g.Indexed) {id : ThingId} {th : Thing} (hth : g.get? id = some th) :
    ({ g with things := g.things.erase id }.unindex id th).Indexed ∧
      (∀ x, ({ g with things := g.things.erase id }.unindex id th).bare? x = if x = id then none else g.bare? x) ∧
      ∀ x ro q, ({ g with things := g.things.erase id }.unindex id th).Plays x ro q ↔ g.Plays x ro q ∧ x ≠ id := by
  have hthings : ({ g with things := g.things.erase id }.unindex id th).things = g.things.erase id := by
    rw [unindex_eq]
  have hplays := plays_erased hthings
  refine ⟨⟨?_, ?_, ?_⟩, bare?_erased hthings, hplays⟩
  · intro t x
    rw [type_erased hthings, unindex_eq, Multimap.mem_remove, hi.byType]
    apply and_congr_right
    rintro ⟨b, hb, rfl⟩
    refine not_congr ⟨And.right, ?_⟩
    rintro rfl
    obtain rfl := Option.some.inj (hb.symm.trans (bare?_of_get? hth))
    exact ⟨Thing.bare_type th, rfl⟩
  · intro t k x
    rw [value_erased hthings, unindex_eq, ← hi.byValue]
    -- the entry that names the instance is the one that its own value asks for
    have hself : g.byValue[(⟨t, k⟩ : AttributeKey)]? = some id ↔ t = th.type ∧ ∃ v, th.value? = some v ∧ v.key = k := by
      rw [hi.byValue, bare?_of_get? hth]
      simp [eq_comm]
    cases hval : th.value? with
    | none =>
      simp only [hval] at hself
      refine (and_iff_left_of_imp ?_).symm
      rintro hx rfl
      simpa using hself.1 hx
    | some v =>
      simp only [hval, Option.some.injEq, exists_eq_left'] at hself
      simp only [Option.elim, lookup_erase, AttributeKey.mk.injEq]
      by_cases hk : t = th.type ∧ k = v.key
      · rw [if_pos hk, hself.2 ⟨hk.1, hk.2.symm⟩]
        simp [eq_comm]
      · rw [if_neg hk]
        refine (and_iff_left_of_imp ?_).symm
        rintro hx rfl
        exact hk ⟨(hself.1 hx).1, (hself.1 hx).2.symm⟩
  · intro p m
    rw [hplays, unindex_eq]
    apply mem_foldl_drop.trans
    rw [hi.byPlayer]
    refine and_congr_right fun hm => not_congr ⟨And.left, fun hr => ⟨hr, ?_⟩⟩
    exact (plays_iff (hr ▸ hth)).1 hm

theorem remove_eq_ok {g g' : Graph} {id : ThingId} {th : Thing} : g.remove id = .ok (th, g') ↔ g.get? id = some th ∧
    g' = (({ g with things := g.things.erase id }.unindex id th).relationsOf id).foldl
      (fun (g : Graph) (m : Membership) => (g.detach m.relation ⟨m.role, id⟩).2)
      ({ g with things := g.things.erase id }.unindex id th) := by
  unfold remove
  cases hth : g.get? id with
  | none => simp
  | some th' =>
    simp only [Except.ok.injEq, Prod.mk.injEq, Option.some.injEq]
    constructor
    · rintro ⟨rfl, rfl⟩
      exact ⟨rfl, rfl⟩
    · rintro ⟨rfl, rfl⟩
      exact ⟨rfl, rfl⟩

theorem remove_total {g : Graph} {id : ThingId} {th : Thing} (h : g.get? id = some th) :
    ∃ g', g.remove id = .ok (th, g') := ⟨_, remove_eq_ok.2 ⟨h, rfl⟩⟩

/-- **An instance less.** It is gone as an instance and as a player, and everything else is as it was. -/
theorem remove_spec {g g' : Graph} {id : ThingId} {th : Thing} (hi : g.Indexed) (hc : g.Closed)
    (h : g.remove id = .ok (th, g')) :
    g'.Indexed ∧ g'.Closed ∧ (∀ x, g'.bare? x = if x = id then none else g.bare? x) ∧
      ∀ x ro q, g'.Plays x ro q ↔ g.Plays x ro q ∧ x ≠ id ∧ q ≠ id := by
  obtain ⟨hth, hg'⟩ := remove_eq_ok.1 h
  obtain ⟨hi', hbare', hplays'⟩ := unindex_spec hi hth
  obtain ⟨hi'', hbare, hplays⟩ := foldl_detach_spec hi' id
    (({ g with things := g.things.erase id }.unindex id th).relationsOf id)
  rw [← hg'] at hi'' hbare hplays
  have hplays'' : ∀ x ro q, g'.Plays x ro q ↔ g.Plays x ro q ∧ x ≠ id ∧ q ≠ id := by
    intro x ro q
    apply (hplays x ro q).trans
    rw [hplays', mem_relationsOf hi', hplays']
    constructor
    · rintro ⟨⟨hp, hx⟩, hn⟩
      exact ⟨hp, hx, fun hq => hn ⟨hq, hq ▸ hp, hx⟩⟩
    · rintro ⟨hp, hx, hq⟩
      exact ⟨⟨hp, hx⟩, fun hn => hq hn.1⟩
  refine ⟨hi'', ?_, fun x => (hbare x).trans (hbare' x), hplays''⟩
  intro x ro q hx
  obtain ⟨hp, -, hq⟩ := (hplays'' x ro q).1 hx
  obtain ⟨b, hb⟩ := contains_iff_bare?.1 (hc x ro q hp)
  exact contains_iff_bare?.2 ⟨b, by rw [hbare, hbare', if_neg hq, hb]⟩

theorem contains_remove {g g' : Graph} {id x : ThingId} {th : Thing} (hi : g.Indexed) (hc : g.Closed)
    (h : g.remove id = .ok (th, g')) : g'.contains x ↔ g.contains x ∧ x ≠ id := by
  obtain ⟨-, -, hbare, -⟩ := remove_spec hi hc h
  rw [contains_iff_bare?, contains_iff_bare?, hbare]
  split
  · simp [*]
  · simp [*]

end Graph

end ConceptGraph
