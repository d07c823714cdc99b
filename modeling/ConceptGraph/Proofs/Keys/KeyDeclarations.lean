/-
A key that is declared, and the check at the end of a transaction.

Whether an attribute type can be made a key is asked by a walk that stops at the first instance in the way. At the end of
a transaction another walk collects all that is in the way of the keys there are. The two agree.

- `firstKeyProblemFrom_eq`: the first walk finds what the second one finds first.
- `DueTo`: what is told at the end of a transaction because of one key. `mem_commitViolations`: all that is told is due to
  some key.
- `keyKept_congr`: whether a key is kept does not depend on what the schema declares besides.
- `Session.key_as_at_commit`: a key is refused exactly if, were it declared, something would be told because of it.
-/
import ConceptGraph.Proofs.Transaction.Alterations
import ConceptGraph.Proofs.Keys.KeyedHolding

namespace ConceptGraph

open Std

namespace State

variable {s s' : State} {first : UInt64} {n m : Nat} {t a : TypeId} {x : ThingId} {seen : ExtTreeMap ValueKey ThingId}
  {owners : List ThingId}

/-! ## Two walks -/

/-- **The walk that stops** finds what the other one finds first. -/
theorem firstKeyProblemFrom_eq (s : State) (a : TypeId) (seen : ExtTreeMap ValueKey ThingId) (owners : List ThingId) :
    s.firstKeyProblemFrom a seen owners = (s.keyProblemsFrom a seen owners).head? := by
  induction owners generalizing seen with
  | nil => rfl
  | cons owner owners ih =>
    rw [firstKeyProblemFrom, keyProblemsFrom]
    split
    · split
      · exact ih _
      · split
        · rfl
        · exact ih _
    · rfl

/-- a problem is one of an instance that has been walked past -/
theorem owner_of_mem_keyProblemsFrom {p : KeyProblem} (hp : p ∈ s.keyProblemsFrom a seen owners) : p.owner ∈ owners := by
  induction owners generalizing seen with
  | nil => simp [keyProblemsFrom] at hp
  | cons owner owners ih =>
    rw [keyProblemsFrom] at hp
    split at hp
    · split at hp
      · exact List.mem_cons_of_mem _ (ih hp)
      · dsimp only at hp
        split at hp
        · rcases List.mem_cons.1 hp with rfl | hp
          · exact List.mem_cons_self
          · exact List.mem_cons_of_mem _ (ih hp)
        · exact List.mem_cons_of_mem _ (ih hp)
    · rcases List.mem_cons.1 hp with rfl | hp
      · exact List.mem_cons_self
      · exact List.mem_cons_of_mem _ (ih hp)

/-! ## What is told, and why -/

/-- the violation is told because `a` is a key of `t` -/
def DueTo (s : State) (t a : TypeId) (v : Violation) : Prop :=
  ∃ d, s.schema.get? t = some d ∧ d.owns[a]? = some .key ∧ v ∈ s.keyViolations t d a

/-- **All that is told** at the end of a transaction is due to some key, and all that is due to one is told. -/
theorem mem_commitViolations {v : Violation} : v ∈ s.commitViolations ↔ ∃ t a, s.DueTo t a v := by
  simp only [commitViolations, List.mem_flatMap, List.mem_filter, Prod.exists,
    ExtTreeMap.mem_toList_iff_getElem?_eq_some, DueTo, Ownership.isKey, beq_iff_eq]
  constructor
  · rintro ⟨t, d, hd, a, o, ⟨ha, rfl⟩, hv⟩
    exact ⟨t, a, d, hd, ha, hv⟩
  · rintro ⟨t, a, d, hd, ha, hv⟩
    exact ⟨t, d, hd, a, .key, ⟨ha, rfl⟩, hv⟩

/-- nothing is told because of a key exactly if it is kept -/
theorem not_dueTo_iff (h : s.Sound first n) (honce : s.HoldsOnce) (hkey : s.schema.DeclaresKey t a) :
    (∀ v ∈ s.commitViolations, ¬ s.DueTo t a v) ↔ s.KeyKept t a := by
  obtain ⟨d, hd, ha⟩ := hkey
  rw [← keyProblems_eq_nil h honce, List.eq_nil_iff_forall_not_mem]
  constructor
  · intro hno p hp
    have hdue : ∃ v, s.DueTo t a v := ⟨_, d, hd, ha, List.mem_map_of_mem hp⟩
    obtain ⟨v, hv⟩ := hdue
    exact hno v (mem_commitViolations.2 ⟨t, a, hv⟩) hv
  · rintro hno v - ⟨d', hd', -, hv⟩
    obtain ⟨p, hp, -⟩ := List.mem_map.1 hv
    exact hno p hp

/-! ## What a key depends on -/

/-- whether a key is kept is up to the instances, what they hold, and what is above their types -/
theorem keyKept_congr (hgraph : s'.graph = s.graph) (hheld : ∀ x, s'.attributesOf x = s.attributesOf x)
    (habove : ∀ id b, s.graph.bare? id = some b → s'.schema.supertypes b.type = s.schema.supertypes b.type) :
    s'.KeyKept t a ↔ s.KeyKept t a := by
  have hinst : ∀ t x, s'.IsInstance t x ↔ s.IsInstance t x := by
    intro t x
    rw [isInstance_iff_bare?, isInstance_iff_bare?, hgraph]
    refine exists_congr fun b => and_congr_right fun hb => ?_
    rw [habove x b hb]
  have hunder : ∀ x held, s'.HoldsUnder a x held ↔ s.HoldsUnder a x held := by
    intro x held
    rw [HoldsUnder, HoldsUnder, hheld, hinst]
  have hvalue : ∀ x, s'.valueKey? x = s.valueKey? x := by
    intro x
    rw [valueKey?, valueKey?, hgraph]
  constructor
  · rintro ⟨hone, hdistinct⟩
    simp only [hinst, hunder, hvalue] at hone hdistinct
    exact ⟨hone, hdistinct⟩
  · rintro ⟨hone, hdistinct⟩
    refine ⟨?_, ?_⟩ <;> simpa only [hinst, hunder, hvalue]

/-- more declarations do not matter -/
theorem SchemaStep.keyKept_iff {k : Nat} (h : s.Sound first n) (hstep : SchemaStep first n k NoneLost s s')
    (hx : s.schema.Extends (fun t => Issued first n t.raw) s'.schema) : s'.KeyKept t a ↔ s.KeyKept t a := by
  refine keyKept_congr hstep.graph (fun x => ?_) fun id b hb => ?_
  · rw [attributesOf, attributesOf, ownershipsOf_congr hstep.graph fun id b hb => hstep.records id b hb not_false]
  · have hs := h.coherent.indexed
    have hs' := hstep.sound.coherent.indexed
    cases hd : s.schema.get? b.type with
    | some d => exact hx.supertypes hs hs' hd
    | none => rw [hs.supertypes_of_none hd, hs'.supertypes_of_none (hx.undefined _ (h.issuedThings id b hb).2 hd)]

/-! ## The check of a new key -/

variable {d e : TypeDef}

/-- what is asked about a new key is how the walk ends -/
theorem checkKey_new (he : s.Editable t d) (hrole : d.kind ≠ .role) (ho : s.Editable a e) (hk : e.kind = .attribute)
    (hnew : d.owns[a]? ≠ some .key) : (s.keyProblems t a = [] ∧ s.checkKey t a = .ok ()) ∨
      ∃ message p, p ∈ s.keyProblems t a ∧ s.checkKey t a = .error (.violationBy .keyViolation message t p.owner) := by
  have hnot : ¬ d.owns[a]?.any Ownership.isKey := by
    intro hany
    obtain ⟨o, ha, ho⟩ := (Option.any_eq_true _ _).1 hany
    rw [Ownership.isKey, beq_iff_eq] at ho
    exact hnew (ho ▸ ha)
  have hwalk := firstKeyProblemFrom_eq s a ∅ ((s.instances t).map (·.1))
  rw [← keyProblems] at hwalk
  rw [checkKey, editableThingType_eq_ok.2 ⟨he, hrole⟩, editable_eq_ok.2 ⟨ho, hk⟩]
  simp only [bind, Except.bind, if_neg hnot, hwalk]
  cases hp : (s.keyProblems t a).head? with
  | none => exact Or.inl ⟨List.head?_eq_none_iff.1 hp, rfl⟩
  | some p => exact Or.inr ⟨_, p, List.mem_of_head? hp, rfl⟩

end State

namespace Transaction

open State

variable {first : UInt64} {n : Nat} {t : Transaction} {a owned : TypeId} {d e : TypeDef}

/-! ## The declaration -/

/-- what comes of declaring a key without a look at the instances -/
def withKey (t : Transaction) (a owned : TypeId) : Transaction := (outcome (declareOwnership a owned .key) t).2

theorem declareOwnership_declares (a owned : TypeId) (ownership : Ownership) :
    Ensures (declareOwnership a owned ownership) t fun _ t' =>
      ∃ d, t'.working.schema.get? a = some d ∧ d.owns[owned]? = some ownership := by
  unfold declareOwnership
  refine .bind fun r t' _ u t'' heq => ?_
  rw [outcome_editSchema] at heq
  split at heq
  · rename_i schema' hs'
    obtain ⟨-, rfl⟩ := Prod.mk.inj heq
    obtain ⟨d, hd, rfl⟩ := Schema.change_eq_ok.1 hs'
    refine ⟨_, (Schema.get?_redefine _ _ _ _).trans (if_pos rfl), ?_⟩
    simp
  · simp at heq

theorem drawn_declareOwnership (a owned : TypeId) (ownership : Ownership) (m : Mutation) (t : Transaction) :
    drawn t (outcome (do declareOwnership a owned ownership; record m) t).2 ≤ 3 := by
  simp only [declareOwnership, ensureImplicit, bind_assoc]
  rw [outcome_bind, outcome_look]
  dsimp only
  cases t.working.schema.implicitForOwned? owned with
  | some r =>
    simp only [pure_bind]
    rw [((keeps_editSchema _).bind fun _ => keeps_record _).draws.drawn (by decide)]
    exact Nat.zero_le 3
  | none =>
    simp only [bind_assoc, pure_bind]
    rw [outcome_bind, outcome_ask]
    cases t.working.schema.require owned with
    | error err => simp [drawn]
    | ok d => exact (draws_record.drawn (by decide) t).le

section Declared

variable (h : t.Sound first n) (hn : n + 3 < 2 ^ 64) (he : t.working.Editable a d) (ho : t.working.Editable owned e)
  (hk : e.kind = .attribute)

include h hn he ho hk

/-- **The declaration** goes through, and leaves instances as they are. -/
theorem withKey_spec : outcome (declareOwnership a owned .key) t = (.ok (), t.withKey a owned) ∧
    (t.withKey a owned).working.schema.DeclaresKey a owned ∧
    (∃ k, SchemaStep first n k NoneLost t.working (t.withKey a owned).working) ∧
    t.working.schema.Extends (fun x => Issued first n x.raw) (t.withKey a owned).working.schema := by
  have hdrawn := drawn_declareOwnership a owned .key (.key a owned) t
  obtain ⟨u, t', hout, k, -, -, -, hstep⟩ :=
    declareOwnership_settles h he ho hk .key (m := .key a owned) (by omega)
  replace hdrawn : drawn t t' ≤ 3 := by rwa [hout] at hdrawn
  have hx := declareOwnership_enriches h ho .key u t' hout (by omega)
  obtain ⟨_, t'', hdecl, hrecord⟩ := outcome_bind_eq_ok.1 hout
  obtain ⟨-, rfl⟩ := Prod.mk.inj ((outcome_record _ _).symm.trans hrecord)
  have hwith : t.withKey a owned = t'' := congrArg Prod.snd hdecl
  rw [hwith]
  exact ⟨hdecl, declareOwnership_declares a owned .key _ _ hdecl, ⟨k, hstep⟩, hx.declares⟩

/-- what would be told because of the key -/
theorem withKey_dueTo_iff (honce : t.working.HoldsOnce) :
    (∀ v ∈ (t.withKey a owned).working.commitViolations, ¬ (t.withKey a owned).working.DueTo a owned v) ↔
      t.working.keyProblems a owned = [] := by
  obtain ⟨-, hkey, ⟨k, hstep⟩, hx⟩ := withKey_spec h hn he ho hk
  have honce' : (t.withKey a owned).working.HoldsOnce :=
    honce.adds (.of_fewer fun _ _ _ _ hedge => (hstep.edge_iff.1 hedge).1)
  rw [not_dueTo_iff hstep.sound honce' hkey, hstep.keyKept_iff h.working hx, ← keyProblems_eq_nil h.working honce]

end Declared

/-- a new key that is allowed is declared, and nothing else -/
theorem key_done (h : t.Sound first n) (hn : n + 3 < 2 ^ 64) (he : t.working.Editable a d)
    (ho : t.working.Editable owned e) (hk : e.kind = .attribute) (hnew : d.owns[owned]? ≠ some .key)
    (hc : t.working.checkKey a owned = .ok ()) : outcome (key a owned) t =
      (.ok (), { t.withKey a owned with mutations := (t.withKey a owned).mutations ++ [.key a owned] }) := by
  obtain ⟨hdecl, -⟩ := withKey_spec h hn he ho hk
  unfold key
  rw [outcome_allowed hc, outcome_allowed (Schema.require_eq_ok.2 he.1), if_pos hnew, outcome_bind, hdecl]
  rfl

end Transaction

namespace Session

open State Transaction

variable {config : SessionConfig} {ids : Option IdSource} {journal : Option Journal} {s : Session} {es : List Event}
  {t : Transaction} {a owned : TypeId} {d e : TypeDef}

/-- **A key is refused** exactly if, with the declaration made all the same, something would be told because of it at the
end of the transaction. The refusal names the type and an instance of it or of a subtype; if there is none, the declaration
is what is made. There have to be identifiers left for the record of an ownership. -/
theorem key_as_at_commit (hs : start config ids journal = .ok s) (hfit : s.issued es + 3 < 2 ^ 64)
    (hw : (s.run es).writer = some t) (he : t.working.Editable a d) (hrole : d.kind ≠ .role)
    (ho : t.working.Editable owned e) (hk : e.kind = .attribute) (hnew : d.owns[owned]? ≠ some .key) :
    (outcome (declareOwnership a owned .key) t = (.ok (), t.withKey a owned) ∧
      (t.withKey a owned).working.graph = t.working.graph ∧
      (t.withKey a owned).working.schema.DeclaresKey a owned) ∧
    ((∃ r, (t.perform (.key a owned)).1 = .ok r) ↔
      ∀ v ∈ (t.withKey a owned).working.commitViolations, ¬ (t.withKey a owned).working.DueTo a owned v) ∧
    (∀ r, (t.perform (.key a owned)).1 = .ok r →
      (t.perform (.key a owned)).2.working = (t.withKey a owned).working) ∧
    ∀ err, (t.perform (.key a owned)).1 = .error err →
      ∃ message x, err = .violationBy .keyViolation message a x ∧ t.working.IsInstance a x := by
  have hlast : s.issued es < 2 ^ 64 := by omega
  have h := (run_sound hs hlast (List.prefix_refl _)).writer hw
  have honce := ((run_holdsOnce hs hlast).writer t hw).working
  obtain ⟨hdecl, hkey, ⟨k, hstep⟩, -⟩ := withKey_spec h hfit he ho hk
  have hperf : t.perform (.key a owned) =
      ((outcome (key a owned) t).1.map fun _ => Reply.done, (outcome (key a owned) t).2) := outcome_map _ _ _
  refine ⟨⟨hdecl, hstep.graph, hkey⟩, ?_⟩
  rw [withKey_dueTo_iff h hfit he ho hk honce, hperf]
  rcases checkKey_new he hrole ho hk hnew with ⟨hnil, hc⟩ | ⟨message, p, hp, hc⟩
  · rw [key_done h hfit he ho hk hnew hc]
    exact ⟨iff_of_true ⟨.done, rfl⟩ hnil, fun _ _ => rfl, nofun⟩
  · have hout : outcome (key a owned) t = (.error (.violationBy .keyViolation message a p.owner), t) := outcome_refused hc
    rw [hout]
    refine ⟨iff_of_false nofun (List.ne_nil_of_mem hp), nofun, ?_⟩
    rintro err herr
    have hinst := (mem_map_instances h.working.coherent.indexed h.working.indexed).1 (owner_of_mem_keyProblemsFrom hp)
    exact ⟨message, p.owner, (Except.error.inj herr).symm, hinst⟩

/-- two persons, one of them without a name; and offices, of which there are none -/
def unnamedPerson : List Event :=
  [.begin, .perform (.putEntityType "person"), .perform (.putAttributeType "name" (some .string)),
    .perform (.has ⟨6⟩ ⟨7⟩), .perform (.putEntityType "office"), .perform (.putAttributeType "code" (some .long)),
    .perform (.createEntity ⟨6⟩), .perform (.createEntity ⟨6⟩), .perform (.putAttribute ⟨7⟩ (.string "x")),
    .perform (.setHas ⟨13⟩ ⟨15⟩)]

set_option maxRecDepth 10000 in
/-- the name cannot be made a key of a person; the code, with its record, can be made one of an office -/
theorem unnamedPerson_key_as_at_commit : blank.issued unnamedPerson + 3 < 2 ^ 64 ∧
    ∃ t, (blank.run unnamedPerson).writer = some t ∧
      (∃ v ∈ (t.withKey ⟨6⟩ ⟨7⟩).working.commitViolations, (t.withKey ⟨6⟩ ⟨7⟩).working.DueTo ⟨6⟩ ⟨7⟩ v) ∧
      (∃ message x, (t.perform (.key ⟨6⟩ ⟨7⟩)).1 = .error (.violationBy .keyViolation message ⟨6⟩ x) ∧
        t.working.IsInstance ⟨6⟩ x) ∧
      (t.perform (.key ⟨11⟩ ⟨12⟩)).1 = .ok .done ∧
      (t.perform (.key ⟨11⟩ ⟨12⟩)).2.working = (t.withKey ⟨11⟩ ⟨12⟩).working ∧
      (t.withKey ⟨11⟩ ⟨12⟩).working.schema.DeclaresKey ⟨11⟩ ⟨12⟩ := by
  have hfit : blank.issued unnamedPerson + 3 < 2 ^ 64 := by decide +kernel
  have hfound : (blank.run unnamedPerson).writer.map (fun t =>
      ((t.working.editableThingType ⟨6⟩).toOption.map fun d => d.owns[(⟨7⟩ : TypeId)]?,
        (t.working.editable ⟨7⟩ .attribute).toOption.isSome,
        (t.working.editableThingType ⟨11⟩).toOption.map fun d => d.owns[(⟨12⟩ : TypeId)]?,
        (t.working.editable ⟨12⟩ .attribute).toOption.isSome)) = some (some (some .has), true, some none, true) := by
    decide +kernel
  have hanswers : (blank.run unnamedPerson).writer.map (fun t =>
      ((t.perform (.key ⟨6⟩ ⟨7⟩)).1.toOption, (t.perform (.key ⟨11⟩ ⟨12⟩)).1.toOption)) =
      some (none, some .done) := by decide +kernel
  obtain ⟨t, hw, ht⟩ := Option.map_eq_some_iff.1 hfound
  simp only [Prod.mk.injEq, Option.map_eq_some_iff, Option.isSome_iff_exists, toOption_eq_some,
    editableThingType_eq_ok, editable_eq_ok] at ht
  obtain ⟨⟨d, ⟨hd, hrole⟩, hhas⟩, ⟨e, he, hk⟩, ⟨d', ⟨hd', hrole'⟩, hnone⟩, e', he', hk'⟩ := ht
  simp only [hw, Option.map_some, Option.some.injEq, Prod.mk.injEq, toOption_eq_some, toOption_eq_none] at hanswers
  obtain ⟨⟨err, herr⟩, hdone⟩ := hanswers
  obtain ⟨-, hiff, -, hnamed⟩ := key_as_at_commit start_testing hfit hw hd hrole he hk (by simp [hhas])
  obtain ⟨⟨-, -, hkey⟩, -, hmade, -⟩ := key_as_at_commit start_testing hfit hw hd' hrole' he' hk' (by simp [hnone])
  obtain ⟨message, x, rfl, hx⟩ := hnamed err herr
  refine ⟨hfit, t, hw, ?_, ⟨message, x, herr, hx⟩, hdone, hmade _ hdone, hkey⟩
  by_contra hno
  push Not at hno
  obtain ⟨r, hr⟩ := hiff.2 hno
  rw [hr] at herr
  cases herr

end Session

end ConceptGraph
