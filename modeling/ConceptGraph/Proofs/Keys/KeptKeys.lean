/-
Keys, and the check of them at the end of a transaction.

- `KeyKept`: each instance of the type holds exactly one attribute of the key, no two of them the same value; subtypes on
  both sides included. `KeysKept`: so it is for every key that is declared.
- `mem_heldUnder`, `nodup_heldUnder`: what the check finds that an instance holds is what it holds, once.
- `keyProblemsFrom_eq_nil`: the walk through the instances finds no problem exactly if each of them holds one attribute,
  and no value is met twice.
- `commitViolations_eq_nil`: in a sound state where nothing is held twice, no violation is found exactly if keys are kept.
- `Session.keys_kept`: keys are kept in every committed state, if the settings ask for the check. A commit is refused for
  a key exactly if they are not kept.
-/
import ConceptGraph.Proofs.Session.Publishing
import ConceptGraph.Proofs.Instances.SingleOwnerships

namespace ConceptGraph

open Std

namespace State

/-! ## What a key asks for -/

/-- the instance is one of the type, or of a subtype -/
def IsInstance (s : State) (t : TypeId) (x : ThingId) : Prop :=
  ∃ th, s.graph.get? x = some th ∧ t ∈ s.schema.supertypes th.type

/-- the instance holds the attribute, which is one of the type or of a subtype -/
def HoldsUnder (s : State) (a : TypeId) (x held : ThingId) : Prop := held ∈ s.attributesOf x ∧ s.IsInstance a held

/-- what it means that the attribute type `a` is a key of `t` -/
structure KeyKept (s : State) (t a : TypeId) : Prop where
  one : ∀ x, s.IsInstance t x → ∃! held, s.HoldsUnder a x held
  distinct : ∀ x y held held' v, s.IsInstance t x → s.IsInstance t y → x ≠ y → s.HoldsUnder a x held →
    s.HoldsUnder a y held' → s.valueKey? held = some v → s.valueKey? held' ≠ some v

/-- all keys that are declared are kept -/
def KeysKept (s : State) : Prop :=
  ∀ t d a, s.schema.get? t = some d → d.owns[a]? = some .key → s.KeyKept t a

variable {s : State} {first : UInt64} {n : Nat} {t a : TypeId} {x y : ThingId}

/-! ## What the check looks at -/

theorem mem_heldUnder {held : ThingId} : held ∈ s.heldUnder x a ↔ s.HoldsUnder a x held := by
  rw [heldUnder, HoldsUnder, mem_attributesOf]
  simp only [List.mem_map, List.mem_filter, Option.any_eq_true, Schema.isSubtypeOf_iff]
  constructor
  · rintro ⟨e, ⟨he, th, hth, ha⟩, rfl⟩
    exact ⟨⟨e, he, rfl⟩, th, hth, ha⟩
  · rintro ⟨⟨e, he, rfl⟩, th, hth, ha⟩
    exact ⟨e, ⟨he, th, hth, ha⟩, rfl⟩

/-- where nothing is held twice, nothing is found twice -/
theorem nodup_heldUnder (h : s.Sound first n) (honce : s.HoldsOnce) (x : ThingId) (a : TypeId) :
    (s.heldUnder x a).Nodup := by
  have hheld : ((s.ownershipsOf x).map OwnershipEdge.held).Nodup := by
    refine (List.Nodup.of_map _ (nodup_ownershipsOf s x)).map_on fun e he e' he' heq => ?_
    obtain ⟨ho, q, hedge⟩ := (mem_ownershipsOf h.recorded h.indexed h.instances).1 he
    obtain ⟨ho', q', hedge'⟩ := (mem_ownershipsOf h.recorded h.indexed h.instances).1 he'
    have hr := honce q q' e.relation e'.relation x e.held hedge (heq ▸ hedge')
    obtain ⟨r, o, held⟩ := e
    obtain ⟨r', o', held'⟩ := e'
    exact congr (congrArg₂ OwnershipEdge.mk hr (ho.trans ho'.symm)) heq
  exact hheld.sublist (List.filter_sublist.map _)

/-- the instances of a type are met once each -/
theorem nodup_instances (hs : s.schema.Indexed) (hg : s.graph.Indexed) (t : TypeId) :
    ((s.instances t).map Prod.fst).Nodup := by
  have hsub : (s.schema.subtypes t).Nodup := by
    rw [Schema.subtypes, Schema.hierarchyOf_eq_forest]
    exact Hierarchy.nodup_subtypes (hs.forests _) t
  rw [instances, List.map_flatMap]
  refine List.nodup_flatMap.2 ⟨fun sub _ => ?_, hsub.imp fun {sub sub'} hne => ?_⟩
  · rw [Graph.ofType, List.map_filterMap]
    refine List.Nodup.filterMap (fun i j id hi hj => ?_) Multimap.nodup_toList
    simp only [Option.map_map, Option.mem_def, Option.map_eq_some_iff, Function.comp_apply] at hi hj
    obtain ⟨th, -, rfl⟩ := hi
    obtain ⟨th', -, heq⟩ := hj
    exact heq.symm
  · intro id hid hid'
    obtain ⟨⟨i, th⟩, hth, rfl⟩ := List.mem_map.1 hid
    obtain ⟨⟨j, th'⟩, hth', heq⟩ := List.mem_map.1 hid'
    obtain rfl : j = i := heq
    obtain ⟨hget, rfl⟩ := (Graph.mem_ofType hg).1 hth
    obtain ⟨hget', rfl⟩ := (Graph.mem_ofType hg).1 hth'
    exact hne (congrArg Thing.type (Option.some.inj (hget.symm.trans hget')))

theorem mem_map_instances (hs : s.schema.Indexed) (hg : s.graph.Indexed) :
    x ∈ (s.instances t).map Prod.fst ↔ s.IsInstance t x := by
  rw [List.mem_map]
  constructor
  · rintro ⟨⟨i, th⟩, hth, rfl⟩
    exact ⟨th, (mem_instances hs hg).1 hth⟩
  · rintro ⟨th, hth⟩
    exact ⟨(x, th), (mem_instances hs hg).2 hth, rfl⟩

/-- what may be held has a value -/
theorem valueKey?_of_mayHold (h : s.Sound first n) {held : ThingId} (hm : s.MayHold x held) :
    ∃ v, s.valueKey? held = some v := by
  obtain ⟨bo, ba, -, hba, hown⟩ := hm
  obtain ⟨c, -, a, ha, d, hd, howns⟩ := Schema.ownership?_isSome.1 hown
  -- the type of what is held is below an attribute type
  obtain ⟨v, hv⟩ := h.value?_of_below hba ha ((h.coherent.refs c d hd).owns a howns)
  obtain ⟨th, hth, rfl⟩ := Graph.get?_of_bare? hba
  rw [Thing.bare_value?] at hv
  exact ⟨v.key, by simp [valueKey?, hth, hv]⟩

theorem valueKey?_of_held (h : s.Sound first n) {held : ThingId} (hheld : held ∈ s.attributesOf x) :
    ∃ v, s.valueKey? held = some v := by
  obtain ⟨e, he, rfl⟩ := mem_attributesOf.1 hheld
  obtain ⟨-, q, hedge⟩ := (mem_ownershipsOf h.recorded h.indexed h.instances).1 he
  exact valueKey?_of_mayHold h (hedge.mayHold h.recorded h.instances)

/-! ## The walk through the instances -/

/-- the instance holds one attribute of the key, with that value -/
def HoldsOne (s : State) (a : TypeId) (x : ThingId) (v : ValueKey) : Prop :=
  ∃ held, s.heldUnder x a = [held] ∧ s.valueKey? held = some v

theorem HoldsOne.unique {v w : ValueKey} (h : s.HoldsOne a x v) (h' : s.HoldsOne a x w) : v = w := by
  obtain ⟨held, hheld, hv⟩ := h
  obtain ⟨held', hheld', hw⟩ := h'
  obtain rfl : held = held' := List.cons_eq_cons.1 (hheld.symm.trans hheld') |>.1
  exact Option.some.inj (hv.symm.trans hw)

/-- the two do not hold the same value -/
def Unshared (s : State) (a : TypeId) (x y : ThingId) : Prop := ∀ v, s.HoldsOne a x v → ¬ s.HoldsOne a y v

instance (s : State) (a : TypeId) : Std.Symm (s.Unshared a) := ⟨fun _ _ hxy v hv hv' => hxy v hv' hv⟩

/-- where one attribute is held, its value has to be a new one -/
theorem keyProblemsFrom_of_holdsOne {v : ValueKey} (h : s.HoldsOne a x v) (seen : ExtTreeMap ValueKey ThingId)
    (owners : List ThingId) : s.keyProblemsFrom a seen (x :: owners) = [] ↔
      seen[v]? = none ∧ s.keyProblemsFrom a (seen.insert v x) owners = [] := by
  obtain ⟨held, hheld, hv⟩ := h
  rw [keyProblemsFrom, hheld]
  simp only [hv]
  cases seen[v]? <;> simp

/-- where none or several are held, that is a problem -/
theorem keyProblemsFrom_ne_nil (hvalue : ∀ held ∈ s.heldUnder x a, ∃ v, s.valueKey? held = some v)
    (h : ∀ v, ¬ s.HoldsOne a x v) (seen : ExtTreeMap ValueKey ThingId) (owners : List ThingId) :
    s.keyProblemsFrom a seen (x :: owners) ≠ [] := by
  rw [keyProblemsFrom]
  split
  · rename_i held hheld
    obtain ⟨v, hv⟩ := hvalue held (by simp [hheld])
    exact absurd ⟨held, hheld, hv⟩ (h v)
  · simp

/-- **The walk** finds nothing exactly if one attribute is held everywhere, with a value that is not met elsewhere. -/
theorem keyProblemsFrom_eq_nil (hvalue : ∀ x, ∀ held ∈ s.heldUnder x a, ∃ v, s.valueKey? held = some v)
    (seen : ExtTreeMap ValueKey ThingId) (owners : List ThingId) : s.keyProblemsFrom a seen owners = [] ↔
      (∀ x ∈ owners, ∃ v, s.HoldsOne a x v ∧ seen[v]? = none) ∧
        owners.Pairwise (s.Unshared a) := by
  induction owners generalizing seen with
  | nil => simp [keyProblemsFrom]
  | cons x owners ih =>
    rw [List.forall_mem_cons, List.pairwise_cons]
    by_cases hx : ∃ v, s.HoldsOne a x v
    · obtain ⟨v, hv⟩ := hx
      -- the others hold values that were new before, and are not that of `x`
      have hseen : ∀ w, (seen.insert v x)[w]? = none ↔ w ≠ v ∧ seen[w]? = none := by
        intro w
        rw [lookup_insert]
        by_cases hw : w = v <;> simp [hw]
      rw [keyProblemsFrom_of_holdsOne hv, ih]
      simp only [hseen]
      constructor
      · rintro ⟨hnew, hall, hpair⟩
        refine ⟨⟨⟨v, hv, hnew⟩, fun y hy => ?_⟩, fun y hy w hw hyw => ?_, hpair⟩
        · obtain ⟨w, hyw, -, hw⟩ := hall y hy
          exact ⟨w, hyw, hw⟩
        · obtain ⟨w', hyw', hne, -⟩ := hall y hy
          exact hne ((hyw'.unique hyw).trans (hw.unique hv))
      · rintro ⟨⟨⟨v', hv', hnew⟩, hall⟩, hx, hpair⟩
        refine ⟨hv'.unique hv ▸ hnew, fun y hy => ?_, hpair⟩
        obtain ⟨w, hyw, hw⟩ := hall y hy
        refine ⟨w, hyw, ?_, hw⟩
        rintro rfl
        exact hx y hy w hv hyw
    · have hnone : ∀ v, ¬ s.HoldsOne a x v := fun v hv => hx ⟨v, hv⟩
      refine iff_of_false (keyProblemsFrom_ne_nil (hvalue x) hnone seen owners) ?_
      rintro ⟨⟨⟨v, hv, -⟩, -⟩, -⟩
      exact hnone v hv

/-! ## The check as a whole -/

section Sound

variable (h : s.Sound first n) (honce : s.HoldsOnce)

include h

theorem valueKey?_of_heldUnder (x : ThingId) : ∀ held ∈ s.heldUnder x a, ∃ v, s.valueKey? held = some v :=
  fun _ hheld => valueKey?_of_held h (mem_heldUnder.1 hheld).1

include honce

theorem existsUnique_held_iff : (∃! held, s.HoldsUnder a x held) ↔ ∃ v, s.HoldsOne a x v := by
  constructor
  · rintro ⟨held, hheld, honly⟩
    have hmem := mem_heldUnder.2 hheld
    obtain ⟨v, hv⟩ := valueKey?_of_heldUnder h x held hmem
    refine ⟨v, held, ?_, hv⟩
    refine List.perm_singleton.1 ((List.perm_ext_iff_of_nodup (nodup_heldUnder h honce x a) (List.nodup_singleton held)).2 ?_)
    intro held'
    rw [List.mem_singleton]
    exact ⟨fun hm => honly held' (mem_heldUnder.1 hm), fun he => he ▸ hmem⟩
  · rintro ⟨v, held, hheld, -⟩
    refine ⟨held, mem_heldUnder.1 (by simp [hheld]), fun held' hheld' => ?_⟩
    have := mem_heldUnder.2 hheld'
    rwa [hheld, List.mem_singleton] at this

/-- **One key** is kept exactly if the check finds no problem with it. -/
theorem keyProblems_eq_nil : s.keyProblems t a = [] ↔ s.KeyKept t a := by
  have hmem : ∀ x, x ∈ (s.instances t).map Prod.fst ↔ s.IsInstance t x := fun x =>
    mem_map_instances h.coherent.indexed h.indexed
  have hnodup := nodup_instances h.coherent.indexed h.indexed t
  rw [keyProblems, keyProblemsFrom_eq_nil (valueKey?_of_heldUnder h)]
  simp only [hmem, ExtTreeMap.getElem?_empty, and_true]
  constructor
  · rintro ⟨hone, hpair⟩
    refine ⟨fun x hx => (existsUnique_held_iff h honce).2 (hone x hx), ?_⟩
    intro x y held held' v hx hy hne hheld hheld' hv hv'
    obtain ⟨w, k, hk, hw⟩ := hone x hx
    obtain ⟨w', k', hk', hw'⟩ := hone y hy
    obtain rfl : held = k := by simpa [hk] using mem_heldUnder.2 hheld
    obtain rfl : held' = k' := by simpa [hk'] using mem_heldUnder.2 hheld'
    exact hpair.forall ((hmem x).2 hx) ((hmem y).2 hy) hne v ⟨held, hk, hv⟩ ⟨held', hk', hv'⟩
  · intro hkept
    refine ⟨fun x hx => (existsUnique_held_iff h honce).1 (hkept.one x hx), ?_⟩
    refine hnodup.imp_of_mem fun {x y} hx hy hne v hv hv' => ?_
    obtain ⟨held, hheld, hval⟩ := hv
    obtain ⟨held', hheld', hval'⟩ := hv'
    exact hkept.distinct x y held held' v ((hmem x).1 hx) ((hmem y).1 hy) hne (mem_heldUnder.1 (by simp [hheld]))
      (mem_heldUnder.1 (by simp [hheld'])) hval hval'

/-- **Keys are kept** exactly if the check finds no violation. -/
theorem commitViolations_eq_nil : s.commitViolations = [] ↔ s.KeysKept := by
  simp only [commitViolations, List.flatMap_eq_nil_iff, Prod.forall, ExtTreeMap.mem_toList_iff_getElem?_eq_some,
    List.mem_filter, keyViolations, List.map_eq_nil_iff, keyProblems_eq_nil h honce]
  constructor
  · intro hall t d a hd ha
    exact hall t d hd a .key ⟨ha, rfl⟩
  · rintro hkept t d hd a o ⟨ha, ho⟩
    cases o with
    | key => exact hkept t d a hd ha
    | has => cases ho

end Sound

/-- an empty keyspace has no keys -/
theorem bootstrap_keysKept (first : UInt64) : (⟨.bootstrap (MetaTypes.take ⟨first⟩).1, .empty⟩ : State).KeysKept := by
  intro t d a hd ha
  rw [(Schema.bootstrap_bare (MetaTypes.nodup_take first) hd).owns] at ha
  simp at ha

theorem kind_of_mem_commitViolations {v : Violation} (hv : v ∈ s.commitViolations) : v.kind = .keyViolation := by
  simp only [commitViolations, List.mem_flatMap, keyViolations, List.mem_map] at hv
  obtain ⟨d, -, o, -, p, -, rfl⟩ := hv
  rfl

end State

namespace Session

variable {config : SessionConfig} {ids : Option IdSource} {journal : Option Journal} {s : Session} {es : List Event}
  {t : Transaction}

/-! ## Settings -/

theorem config_finish (s : Session) (t : Transaction) (now : UtcTime) : (s.finish t now).2.config = s.config := by
  obtain ⟨_, _, h⟩ := s.finish_discards t now
  rw [h, discard]

theorem config_step (s : Session) (e : Event) : (s.step e).config = s.config := by
  cases hw : s.writer with
  | none =>
    cases e with
    | begin =>
      rw [step_begin_idle hw]
      rfl
    | perform op => rw [step_perform_idle hw]
    | commit now => rw [step_commit_idle hw]
    | rollback => rw [step_rollback_idle hw]
    | rejectNextCommit => rfl
    | drawElsewhere count => rw [step_drawElsewhere_idle hw]
  | some t =>
    cases e with
    | begin => rw [step_begin hw]
    | perform op => rw [step_perform hw]
    | commit now =>
      rw [step_commit hw]
      exact s.config_finish t now
    | rollback =>
      rw [step_rollback hw]
      rfl
    | rejectNextCommit => rfl
    | drawElsewhere count => rw [step_drawElsewhere hw]

theorem config_run (s : Session) (es : List Event) : (s.run es).config = s.config :=
  run_induction (P := fun s' => s'.config = s.config) rfl (fun p e _ h => (config_step (s.run p) e).trans h)
    (List.prefix_refl es)

/-! ## Commits -/

/-- a state that replaces the committed one has passed the check -/
theorem finish_checked (s : Session) (t : Transaction) (now : UtcTime) :
    (s.finish t now).2.committed = s.committed ∨
      ((s.finish t now).2.committed = t.working ∧ s.commitFault t = none) := by
  unfold finish
  split
  · exact Or.inl rfl
  · rename_i hfault
    split
    · exact Or.inr ⟨rfl, hfault⟩
    · split
      · exact Or.inr ⟨rfl, hfault⟩
      · exact Or.inl rfl
      · exact Or.inl rfl

theorem step_checked (s : Session) (e : Event) : (s.step e).committed = s.committed ∨
    ∃ t, s.writer = some t ∧ (s.step e).committed = t.working ∧ s.commitFault t = none := by
  by_cases hcommit : ∃ now, e = .commit now
  · obtain ⟨now, rfl⟩ := hcommit
    cases hw : s.writer with
    | none =>
      rw [step_commit_idle hw]
      exact Or.inl rfl
    | some t =>
      rw [step_commit hw]
      exact (s.finish_checked t now).imp_right fun h => ⟨t, rfl, h⟩
  · exact Or.inl (committed_kept (publishes?_eq_none fun now _ _ he => absurd ⟨now, he⟩ hcommit))

/-- what a commit finds is the first violation, if the settings ask for the check -/
theorem commitFault_eq_none : s.commitFault t = none ↔ (s.config.validateOnCommit → t.working.commitViolations = []) := by
  unfold commitFault
  split
  · rename_i hv
    simp [hv]
  · rename_i hv
    simp [hv]

/-- a commit is refused for a key exactly if the check finds something; the journal has other reasons -/
theorem finish_keyViolation (s : Session) (t : Transaction) (now : UtcTime) :
    (∃ err s', s.finish t now = (.error err, s') ∧ err.isViolation .keyViolation) ↔ s.commitFault t ≠ none := by
  unfold finish
  split
  · rename_i v hfault
    have hv : v ∈ t.working.commitViolations := by
      unfold commitFault at hfault
      split at hfault
      · exact List.mem_of_head? hfault
      · simp at hfault
    have hkind := State.kind_of_mem_commitViolations hv
    simp [ConceptError.isViolation, ConceptError.violationKind, hkind, hfault]
  · rename_i hfault
    split
    · simp [hfault]
    · split
      · simp [hfault]
      · simp [JournalError.toConceptError, ConceptError.isViolation, ConceptError.violationKind, hfault]
      · simp [hfault]

/-- **Keys are kept** in every committed state, if the settings ask for the check. The check finds nothing in a state of a
transaction exactly if keys are kept in it, and a commit is refused for a key exactly if they are not. -/
theorem keys_kept (hs : start config ids journal = .ok s) (hfit : s.issued es < 2 ^ 64) :
    (config.validateOnCommit → (s.run es).committed.KeysKept) ∧
    ∀ t, (s.run es).writer = some t → (t.working.commitViolations = [] ↔ t.working.KeysKept) ∧
      ∀ now, (∃ err s', (s.run es).commit now = some (.error err, s') ∧ err.isViolation .keyViolation) ↔
        config.validateOnCommit ∧ ¬ t.working.KeysKept := by
  have hconfig : ∀ p, (s.run p).config = config := by
    intro p
    rw [config_run, start_eq hs]
  have hcheck : ∀ p, p <+: es → ∀ t, (s.run p).writer = some t →
      (t.working.commitViolations = [] ↔ t.working.KeysKept) := by
    intro p hp t hw
    have hfit' := Nat.lt_of_le_of_lt (issued_le hp) hfit
    exact State.commitViolations_eq_nil ((run_sound hs hfit hp).writer hw).working
      (((run_holdsOnce hs hfit').writer t hw).working)
  constructor
  · intro hv
    refine run_induction (P := fun s => s.committed.KeysKept) ?_ (fun p e hp h => ?_) (List.prefix_refl es)
    · rw [(start_spec hs).1]
      exact State.bootstrap_keysKept _
    · rcases (s.run p).step_checked e with hc | ⟨t, hw, hc, hfault⟩
      · rwa [hc]
      · rw [hc]
        refine (hcheck p ((List.prefix_append p [e]).trans hp) t hw).1 (commitFault_eq_none.1 hfault ?_)
        rwa [hconfig]
  · intro t hw
    have hiff := hcheck es (List.prefix_refl es) t hw
    refine ⟨hiff, fun now => ?_⟩
    simp only [commit_of_writer hw, Option.some.injEq]
    rw [finish_keyViolation, ne_eq, commitFault_eq_none, hconfig, hiff, Classical.not_imp]

/-- a person known by an address, who is published, and another one without any -/
def addressless : List Event :=
  [.begin, .perform (.putEntityType "person"), .perform (.putAttributeType "address" (some .string)),
    .perform (.key ⟨6⟩ ⟨7⟩), .perform (.createEntity ⟨6⟩), .perform (.putAttribute ⟨7⟩ (.string "x")),
    .perform (.setHas ⟨11⟩ ⟨12⟩), .commit epoch, .begin, .perform (.createEntity ⟨6⟩)]

set_option maxRecDepth 10000 in
theorem addressless_keys_kept : blank.issued addressless < 2 ^ 64 ∧
    (blank.run addressless).committed.attributesOf ⟨11⟩ = [⟨12⟩] ∧ (blank.run addressless).committed.KeysKept ∧
    ∃ t, (blank.run addressless).writer = some t ∧ ¬ t.working.KeysKept ∧
      ∃ err s', (blank.run addressless).commit epoch = some (.error err, s') ∧ err.isViolation .keyViolation := by
  have hfit : blank.issued addressless < 2 ^ 64 := by decide +kernel
  have hheld : (blank.run addressless).committed.attributesOf ⟨11⟩ = [⟨12⟩] := by decide +kernel
  have hbroken : (blank.run addressless).writer.map (fun t => t.working.commitViolations.length) = some 1 := by
    decide +kernel
  obtain ⟨t, hw, hone⟩ := Option.map_eq_some_iff.1 hbroken
  obtain ⟨hcommitted, hwriter⟩ := keys_kept start_testing hfit
  obtain ⟨hiff, hcommit⟩ := hwriter t hw
  have hnot : ¬ t.working.KeysKept := by
    intro hkept
    rw [hiff.2 hkept] at hone
    simp at hone
  exact ⟨hfit, hheld, hcommitted rfl, t, hw, hnot, (hcommit epoch).2 ⟨rfl, hnot⟩⟩

end Session

end ConceptGraph
