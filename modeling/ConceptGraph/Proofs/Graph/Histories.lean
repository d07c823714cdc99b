/-
Graphs as they come about, by one call after the other. A call may fail; the next one then finds the graph as it was.

- `GraphCall`, `Graph.call`, `Graph.callAll`: what can be asked of a graph, and what becomes of it.
- `GraphCall.Fits`: a thing is inserted under an identifier that nothing is stored under, and its players are stored.
- `call_indexed`: one call keeps the indexes exact and the players stored.
- `Graph.Exact`: what that means for those who look things up; `indexes_exact`: so it is after any calls from the empty
  graph, and a call fails exactly where what it names is not there, and then changes nothing.
-/
import ConceptGraph.Proofs.Graph.Indexes

namespace ConceptGraph

open Std

/-- what can be asked of a graph -/
inductive GraphCall where
  | insert (id : ThingId) (thing : Thing)
  | remove (id : ThingId)
  | addRolePlayer (relation : ThingId) (role : TypeId) (player : ThingId)
  | removeRolePlayer (relation : ThingId) (role : TypeId) (player : ThingId)

/-- what a graph answers -/
inductive GraphReply where
  | id (id : ThingId)
  | thing (thing : Thing)
  | flag (b : Bool)

namespace Graph

variable {g g' : Graph} {c : GraphCall} {cs : List GraphCall}

/-- an answer and the graph after it; a call that fails leaves the graph that there was -/
def settle {α : Type} (g : Graph) (reply : α → GraphReply) :
    Except ConceptError (α × Graph) → Except ConceptError GraphReply × Graph
  | .ok (a, g') => (.ok (reply a), g')
  | .error err => (.error err, g)

/-- what comes of a call, and the graph after it -/
def call (g : Graph) : GraphCall → Except ConceptError GraphReply × Graph
  | .insert id thing => g.settle .id (.ok (g.insert id thing))
  | .remove id => g.settle .thing (g.remove id)
  | .addRolePlayer relation role player => g.settle .flag (g.addRolePlayer relation role player)
  | .removeRolePlayer relation role player => g.settle .flag (g.removeRolePlayer relation role player)

/-- the graph after one call after the other -/
def callAll (g : Graph) (cs : List GraphCall) : Graph := cs.foldl (fun g c => (g.call c).2) g

/-- a relation is stored under the identifier -/
def IsRelation (g : Graph) (id : ThingId) : Prop := ∃ th, g.get? id = some th ∧ th.isRelation

end Graph

namespace GraphCall

/-- nothing is stored under the identifier of a thing that is inserted, and its players are stored -/
def Fits (g : Graph) : GraphCall → Prop
  | insert id thing => ¬ g.contains id ∧ ∀ p ∈ thing.rolePlayers, g.contains p.player
  | _ => True

instance (g : Graph) (c : GraphCall) : Decidable (c.Fits g) := by
  cases c <;> unfold Fits <;> infer_instance

/-- what the call names is stored, players of relations in relations -/
def Finds (g : Graph) : GraphCall → Prop
  | insert .. => True
  | remove id => g.contains id
  | addRolePlayer relation _ player => g.contains player ∧ g.IsRelation relation
  | removeRolePlayer relation _ _ => g.IsRelation relation

end GraphCall

namespace Graph

variable {g g' : Graph} {c : GraphCall} {cs : List GraphCall}

/-- each call of a row fits the graph that it meets -/
def Admits (g : Graph) : List GraphCall → Prop
  | [] => True
  | c :: cs => c.Fits g ∧ (g.call c).2.Admits cs

instance decidableAdmits : ∀ (g : Graph) cs, Decidable (g.Admits cs)
  | _, [] => isTrue trivial
  | g, c :: cs =>
    have := decidableAdmits (g.call c).2 cs
    inferInstanceAs (Decidable (_ ∧ _))

/-! ## Calls that fail -/

theorem isRelation_iff {id : ThingId} : g.IsRelation id ↔ ∃ ps, g.playersOf? id = some ps := by
  constructor
  · rintro ⟨th, hth, hr⟩
    obtain ⟨ps, hps⟩ := Thing.isRelation_iff.1 hr
    exact ⟨ps, by rw [playersOf?, hth, Option.bind_some, hps]⟩
  · rintro ⟨ps, hps⟩
    obtain ⟨th, hth, hr⟩ := Option.bind_eq_some_iff.1 hps
    exact ⟨th, hth, Thing.isRelation_iff.2 ⟨ps, hr⟩⟩

/-- a call is answered if and only if what it names is there -/
theorem call_ok_iff : (∃ r, (g.call c).1 = .ok r) ↔ c.Finds g := by
  cases c with
  | insert id thing => exact iff_of_true ⟨_, rfl⟩ trivial
  | remove id =>
    rw [GraphCall.Finds, contains_iff_get?, call, remove]
    cases g.get? id <;> simp [settle]
  | addRolePlayer relation role player =>
    rw [GraphCall.Finds, isRelation_iff, call, addRolePlayer]
    by_cases hp : g.contains player
    · cases g.playersOf? relation with
      | none => simp [settle, hp]
      | some ps => by_cases hm : ps.contains ⟨role, player⟩ <;> simp [settle, hp, hm]
    · simp [settle, hp]
  | removeRolePlayer relation role player =>
    rw [GraphCall.Finds, isRelation_iff, call, removeRolePlayer]
    cases g.playersOf? relation <;> simp [settle]

theorem settle_error {α : Type} {reply : α → GraphReply} {e : Except ConceptError (α × Graph)} {err : ConceptError}
    (h : g.settle reply e = (.error err, g')) : g' = g := by
  cases e with
  | ok r => simp [settle] at h
  | error _ => exact (Prod.mk.inj h).2.symm

theorem call_error {err : ConceptError} (h : g.call c = (.error err, g')) : g' = g := by
  cases c <;> (rw [call] at h; exact settle_error h)

/-! ## Calls that are answered -/

theorem insert_indexed {id : ThingId} {th : Thing} (hi : g.Indexed) (hc : g.Closed)
    (hfits : (GraphCall.insert id th).Fits g) : (g.insert id th).2.Indexed ∧ (g.insert id th).2.Closed := by
  rcases insert_same_or_new g id th with hsame | hnew
  · rw [hsame]
    exact ⟨hi, hc⟩
  · have hgrown := insert_spec hi hc hfits.1 hnew hfits.2
    exact ⟨hgrown.indexed, hgrown.closed⟩

/-- **One call** keeps the indexes exact and the players stored. -/
theorem call_indexed (hi : g.Indexed) (hc : g.Closed) (hfits : c.Fits g) :
    (g.call c).2.Indexed ∧ (g.call c).2.Closed := by
  cases c with
  | insert id th => exact insert_indexed hi hc hfits
  | remove id =>
    rw [call]
    cases hrm : g.remove id with
    | error err => exact ⟨hi, hc⟩
    | ok r =>
      obtain ⟨hi', hc', -⟩ := remove_spec hi hc hrm
      exact ⟨hi', hc'⟩
  | addRolePlayer relation role player =>
    rw [call]
    cases hadd : g.addRolePlayer relation role player with
    | error err => exact ⟨hi, hc⟩
    | ok r =>
      obtain ⟨hi', hc', -⟩ := addRolePlayer_spec hi hc hadd
      exact ⟨hi', hc'⟩
  | removeRolePlayer relation role player =>
    rw [call]
    cases hrm : g.removeRolePlayer relation role player with
    | error err => exact ⟨hi, hc⟩
    | ok r =>
      obtain ⟨hi', hc', -⟩ := removeRolePlayer_spec hi hc hrm
      exact ⟨hi', hc'⟩

/-- **Any calls** keep the indexes exact and the players stored. -/
theorem callAll_indexed (hi : g.Indexed) (hc : g.Closed) (hcs : g.Admits cs) :
    (g.callAll cs).Indexed ∧ (g.callAll cs).Closed := by
  induction cs generalizing g with
  | nil => exact ⟨hi, hc⟩
  | cons c cs ih =>
    obtain ⟨hi', hc'⟩ := call_indexed hi hc hcs.1
    exact ih hi' hc' hcs.2

/-! ## Looking things up -/

/-- what is looked up is what is stored -/
structure Exact (g : Graph) : Prop where
  /-- the instances of a type are those stored with it, in order and each once -/
  mem_ofType : ∀ t id th, (id, th) ∈ g.ofType t ↔ g.get? id = some th ∧ th.type = t
  ascending : ∀ t, (g.ofType t).Pairwise fun a b => a.1.raw < b.1.raw
  count : ∀ t, g.countOfType t = (g.ofType t).length
  /-- the attribute of a value is the one stored with its identity -/
  find : ∀ t v id, g.findAttribute? t v = some id ↔
    ∃ th w, g.get? id = some th ∧ th.type = t ∧ th.value? = some w ∧ w.key = v.key
  interned : ∀ id id' th th' v v', g.get? id = some th → g.get? id' = some th' → th.type = th'.type →
    th.value? = some v → th'.value? = some v' → v.key = v'.key → id = id'
  /-- the relations of a player are those stored with it, each pair of relation and role once -/
  mem_relationsOf : ∀ p m, m ∈ g.relationsOf p ↔
    ∃ th, g.get? m.relation = some th ∧ (⟨m.role, p⟩ : RolePlayer) ∈ th.rolePlayers
  once : ∀ p, (g.relationsOf p).Nodup
  players : ∀ r th p, g.get? r = some th → p ∈ th.rolePlayers → g.contains p.player

theorem ascending_ofType (g : Graph) (t : TypeId) : (g.ofType t).Pairwise fun a b => a.1.raw < b.1.raw := by
  have hlt : ∀ {a b : ThingId}, compare a b = .lt → a.raw < b.raw := fun h => compareOfLessAndEq_eq_lt.1 h
  have hids : (g.byType.toList t).Pairwise fun a b => a.raw < b.raw := ExtTreeSet.ordered_toList.imp hlt
  refine List.pairwise_filterMap.2 (hids.imp fun hlt x hx y hy => ?_)
  obtain ⟨_, -, rfl⟩ := Option.map_eq_some_iff.1 hx
  obtain ⟨_, -, rfl⟩ := Option.map_eq_some_iff.1 hy
  exact hlt

/-- everything in the index of types is stored -/
theorem countOfType_eq (hi : g.Indexed) (t : TypeId) : g.countOfType t = (g.ofType t).length := by
  have hstored : ∀ id ∈ g.byType.toList t, ((g.get? id).map fun th => (id, th)).isSome := by
    intro id hid
    obtain ⟨b, hb, -⟩ := (hi.byType t id).1 (Multimap.mem_toList.1 hid)
    obtain ⟨th, hth, -⟩ := get?_of_bare? hb
    rw [hth]
    rfl
  rw [ofType, List.length_filterMap_eq_countP, List.countP_eq_length.2 hstored]
  exact ExtTreeSet.length_toList.symm

theorem Indexed.exact (hi : g.Indexed) (hc : g.Closed) : g.Exact where
  mem_ofType _ _ _ := Graph.mem_ofType hi
  ascending := g.ascending_ofType
  count := countOfType_eq hi
  find t v id := by
    rw [findAttribute?_eq_some hi]
    constructor
    · rintro ⟨b, w, hb, rfl, hw, hk⟩
      obtain ⟨th, hth, rfl⟩ := get?_of_bare? hb
      exact ⟨th, w, hth, th.bare_type.symm, by rwa [← th.bare_value?], hk⟩
    · rintro ⟨th, w, hth, rfl, hw, hk⟩
      exact ⟨th.bare, w, bare?_of_get? hth, th.bare_type, by rwa [th.bare_value?], hk⟩
  interned id id' th th' v v' hth hth' ht hv hv' hk := by
    have hentry : ∀ {x y w}, g.get? x = some y → y.value? = some w →
        g.byValue[(⟨y.type, w.key⟩ : AttributeKey)]? = some x := fun {x y w} hy hw =>
      (hi.byValue _ _ x).2 ⟨y.bare, w, bare?_of_get? hy, y.bare_type, by rwa [y.bare_value?], rfl⟩
    have h := hentry hth hv
    rw [ht, hk, hentry hth' hv'] at h
    exact (Option.some.inj h).symm
  mem_relationsOf p m := by
    rw [Graph.mem_relationsOf hi]
    constructor
    · intro hp
      obtain ⟨b, hb, -⟩ := hp.relation
      obtain ⟨th, hth, -⟩ := get?_of_bare? hb
      exact ⟨th, hth, (plays_iff hth).1 hp⟩
    · rintro ⟨th, hth, hm⟩
      exact (plays_iff hth).2 hm
  once := g.nodup_relationsOf
  players r th p hth hp := hc r p.role p.player ((plays_iff hth).2 hp)

/-- **The indexes are exact** after any calls from the empty graph, whatever comes of them. A call is answered if and only
if what it names is there, and a call that is not answered changes nothing. -/
theorem indexes_exact (hcs : empty.Admits cs) : (empty.callAll cs).Exact ∧ ∀ c,
    ((∃ r, ((empty.callAll cs).call c).1 = .ok r) ↔ c.Finds (empty.callAll cs)) ∧
    ∀ err g', (empty.callAll cs).call c = (.error err, g') → g' = empty.callAll cs := by
  obtain ⟨hi, hc⟩ := callAll_indexed empty_indexed empty_closed hcs
  exact ⟨hi.exact hc, fun c => ⟨call_ok_iff, fun err g' => call_error⟩⟩

/-- two people, and a friendship that plays in itself; a weight is put twice, as both zeros, and some calls fail -/
def acquaintance : List GraphCall :=
  [.insert ⟨10⟩ ⟨⟨1⟩, .entity⟩, .insert ⟨8⟩ ⟨⟨1⟩, .entity⟩,
    .insert ⟨11⟩ ⟨⟨3⟩, .relation (.ofList ([⟨⟨4⟩, ⟨10⟩⟩, ⟨⟨4⟩, ⟨8⟩⟩] : List RolePlayer))⟩, .addRolePlayer ⟨11⟩ ⟨5⟩ ⟨11⟩,
    .insert ⟨12⟩ ⟨⟨2⟩, .attribute (.double ⟨0⟩)⟩, .insert ⟨13⟩ ⟨⟨2⟩, .attribute (.double ⟨0x8000000000000000⟩)⟩,
    .addRolePlayer ⟨12⟩ ⟨4⟩ ⟨8⟩, .addRolePlayer ⟨11⟩ ⟨5⟩ ⟨12⟩, .remove ⟨10⟩, .remove ⟨10⟩,
    .insert ⟨10⟩ ⟨⟨1⟩, .entity⟩, .removeRolePlayer ⟨11⟩ ⟨5⟩ ⟨12⟩]

set_option maxRecDepth 10000 in
theorem acquaintance_exact : empty.Admits acquaintance ∧ (empty.callAll acquaintance).Exact ∧
    ((empty.callAll acquaintance).ofType ⟨1⟩).map Prod.fst = [⟨8⟩, ⟨10⟩] ∧
    (empty.callAll acquaintance).findAttribute? ⟨2⟩ (.double ⟨0x8000000000000000⟩) = some ⟨12⟩ ∧
    (empty.callAll acquaintance).relationsOf ⟨11⟩ = [⟨⟨11⟩, ⟨5⟩⟩] ∧
    (empty.callAll acquaintance).relationsOf ⟨10⟩ = [] := by
  have hcs : empty.Admits acquaintance := by decide +kernel
  refine ⟨hcs, (indexes_exact hcs).1, ?_, ?_, ?_, ?_⟩ <;> decide +kernel

end Graph

end ConceptGraph
