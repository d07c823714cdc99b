/-
Types that are deleted: when that is refused, and what is left otherwise.

- `Deletable`: an element of a user, without subtypes and instances, and played by nobody if it is a role.
- `filledRole_eq_none`: to look only at relations of types that declare a role, and of their subtypes, misses nobody
  who plays it.
- `TypeDeleted`: the element is gone and so is what was made to record its ownerships, with their labels and their
  places among the supertypes. The definitions that are left have lost what they said about these, and nothing else.
- `Session.deleted_unless_depended_on`: so it is with every element in every transaction that a session gets to.
-/
import ConceptGraph.Proofs.Instances.Strays

namespace ConceptGraph

open Std

/-- the second definition is the first one without what it declares about `a`, and about the roles of its record -/
structure TypeDef.Sheds (a : TypeId) (record : Option ImplicitOwnership) (d d' : TypeDef) : Prop where
  label : d'.label = d.label
  kind : d'.kind = d.kind
  isAbstract : d'.isAbstract = d.isAbstract
  dataType : d'.dataType? = d.dataType?
  regex : d'.regex? = d.regex?
  implicitFor : d'.implicitFor? = d.implicitFor?
  plays : ∀ x, x ∈ d'.plays ↔ x ∈ d.plays ∧ x ≠ a ∧ ¬ Schema.RoleOf record x
  relates : ∀ x, d'.relatesRole x ↔ d.relatesRole x ∧ x ≠ a
  owns : ∀ x, d'.owns[x]? = if x = a then none else d.owns[x]?

namespace State

variable {s s' : State} {first : UInt64} {n : Nat} {a : TypeId} {d : TypeDef}

/-- nothing stands in the way when the element is deleted -/
structure Deletable (s : State) (a : TypeId) : Prop where
  editable : ∃ d, s.Editable a d
  leaf : s.schema.directSubtypes a = []
  unused : ∀ id th, s.graph.get? id = some th → th.type ≠ a
  unplayed : s.schema.HasKind a .role → ∀ id th, s.graph.get? id = some th → ∀ rp ∈ th.rolePlayers, rp.role ≠ a

/-- what is left of a state when an element is deleted -/
structure TypeDeleted (s s' : State) (a : TypeId) : Prop where
  graph : s'.graph = s.graph
  metas : s'.schema.metaTypes = s.schema.metaTypes
  defined : ∀ x, (∃ d, s'.schema.get? x = some d) ↔ (∃ d, s.schema.get? x = some d) ∧ ¬ s.schema.Gone a x
  kept : ∀ x d d', s.schema.get? x = some d → s'.schema.get? x = some d' →
    d.Sheds a (s.schema.implicitForOwned? a) d'
  labels : ∀ l x, s'.schema.idOf? l = some x ↔ s.schema.idOf? l = some x ∧ ¬ s.schema.Gone a x
  nodes : ∀ ofRoles x, (s'.schema.forest ofRoles).contains x ↔
    (s.schema.forest ofRoles).contains x ∧ ¬ s.schema.Gone a x
  parents : ∀ x, ¬ s.schema.Gone a x → s'.schema.directSupertype? x = s.schema.directSupertype? x
  records : ∀ x, s'.schema.implicitForOwned? x = if x = a then none else s.schema.implicitForOwned? x
  recorded : ∀ x r, s'.schema.implicitForRelation? x = some r ↔ s.schema.implicitForRelation? x = some r ∧ r.owned ≠ a

/-! ## What stands in the way -/

/-- **Whoever plays a role** of a user is found in a relation whose type declares the role or inherits it. -/
theorem Sound.filledRole_eq_none (h : s.Sound first n) (hst : s.StraysApart first n) (he : s.Editable a d) :
    s.filledRole a = none ↔ ∀ id th, s.graph.get? id = some th → ∀ rp ∈ th.rolePlayers, rp.role ≠ a := by
  constructor
  · rintro hf r th hth ⟨role, p⟩ hrp rfl
    have hb := Graph.bare?_of_get? hth
    have hp : s.graph.Plays r role p := (Graph.plays_iff hth).2 hrp
    cases hd : s.schema.get? th.bare.type with
    | none =>
      have hgone := hst.roles r role p ⟨_, hb, hd⟩ hp
      rw [he.1] at hgone
      simp at hgone
    | some e =>
      cases hq : s.schema.implicitForRelation? th.bare.type with
      | none => exact not_plays_of_filledRole h.coherent.indexed h.indexed h.instances hf hb ⟨⟨e, hd⟩, hq⟩ hp
      | some q =>
        -- the roles of records are not of users
        have hrec := ((h.recorded.byRelation _ q).1 hq).1
        exact he.not_made h.recorded hrec (Or.inr (h.record_players hb hq hp).1)
  · intro hno
    rw [Option.eq_none_iff_forall_ne_some]
    intro r hf
    obtain ⟨⟨_, th⟩, hfound, rfl⟩ := Option.map_eq_some_iff.1 hf
    obtain ⟨e, -, hfind⟩ := List.exists_of_findSome?_eq_some hfound
    have hth := ((mem_instances h.coherent.indexed h.indexed).1 (List.mem_of_find?_eq_some hfind)).1
    have hplayed := List.find?_some hfind
    have hnone : th.playersOf a = [] := List.eq_nil_iff_forall_not_mem.2 fun p hp =>
      hno _ th hth _ (Thing.mem_playersOf.1 hp) rfl
    simp [hnone] at hplayed

theorem Sound.checkDeleteType_iff (h : s.Sound first n) (hst : s.StraysApart first n) :
    s.checkDeleteType a = .ok () ↔ s.Deletable a := by
  have hcount : ¬ 0 < s.graph.countOfType a ↔ ∀ id th, s.graph.get? id = some th → th.type ≠ a := by
    rw [Graph.countOfType_pos h.indexed]
    constructor
    · exact fun hno id th hth hta => hno ⟨id, _, Graph.bare?_of_get? hth, by rwa [Thing.bare_type]⟩
    · rintro hno ⟨id, b, hb, hba⟩
      obtain ⟨th, hth, rfl⟩ := Graph.get?_of_bare? hb
      exact hno id th hth (by rwa [Thing.bare_type] at hba)
  rw [checkDeleteType_eq_ok]
  constructor
  · rintro ⟨d, he, hleaf, hc, hf⟩
    refine ⟨⟨d, he⟩, hleaf, hcount.1 hc, ?_⟩
    rintro ⟨d', hd', hk⟩
    obtain rfl := Option.some.inj (hd'.symm.trans he.1)
    exact (h.filledRole_eq_none hst he).1 (hf hk)
  · rintro ⟨⟨d, he⟩, hleaf, hunused, hunplayed⟩
    exact ⟨d, he, hleaf, hcount.2 hunused, fun hk => (h.filledRole_eq_none hst he).2 (hunplayed ⟨d, he.1, hk⟩)⟩

/-! ## What is left -/

theorem sheds_withdraw (a : TypeId) (record : Option ImplicitOwnership) (d : TypeDef) :
    d.Sheds a record (Transaction.withdraw a record d) where
  label := Schema.label_withdraw
  kind := Schema.kind_withdraw
  isAbstract := Schema.isAbstract_withdraw
  dataType := Schema.dataType?_withdraw
  regex := Schema.regex?_withdraw
  implicitFor := Schema.implicitFor?_withdraw
  plays _ := Schema.mem_plays_withdraw
  relates _ := Schema.relatesRole_withdraw
  owns x := by rw [Schema.owns_withdraw, lookup_erase]

theorem typeDeleted_of_without {schema' : Schema} (h : s.Sound first n) (hw : s.schema.Without schema' a)
    (hs' : schema'.Indexed) : s.TypeDeleted { s with schema := schema' } a := by
  have hs := h.coherent.indexed
  refine ⟨rfl, hw.metas, fun x => ?_, fun x d d' hd hd' => ?_, fun l x => ?_, fun b x => ?_, hw.parent, hw.byOwned,
    hw.byRelation⟩
  · have hdefined : (∃ e, schema'.get? x = some e ∧ True) ↔ ¬ s.schema.Gone a x ∧ ∃ e, s.schema.get? x = some e ∧ True :=
      hw.stated (fun _ => Iff.rfl) x
    simpa [and_comm] using hdefined
  · obtain ⟨-, e, he, rfl⟩ := hw.get?.1 hd'
    obtain rfl := Option.some.inj (hd.symm.trans he)
    exact sheds_withdraw a _ d
  · rw [hs'.label, hs.label, hw.stated (f := fun e => e.label = l) (fun e => by rw [Schema.label_withdraw]), and_comm]
  · rw [hs'.node, hs.node, hw.stated (f := fun e => e.isRole = b) (fun e => by
      rw [TypeDef.isRole, Schema.kind_withdraw, TypeDef.isRole]), and_comm]

end State

namespace Transaction

open State

variable {first : UInt64} {n : Nat} {t : Transaction} {a : TypeId}

/-- a deletion that the rules allow goes through -/
theorem perform_deleteType (h : t.Sound first n) (hc : t.working.checkDeleteType a = .ok ()) :
    ∃ t', t.perform (.deleteType a) = (.ok .done, t') ∧ t.working.TypeDeleted t'.working a := by
  obtain ⟨d, he, hsub, -⟩ := checkDeleteType_eq_ok.1 hc
  have hleaf := h.working.coherent.indexed.directSubtypes_eq_nil.1 hsub
  obtain ⟨schema', hs', hw, hc', -⟩ :=
    Schema.removeAll_spec h.working.coherent h.working.recorded he.1 he.2.1 he.2.2 hleaf
  have hdone : outcome (do editSchema fun schema => removeAll schema a; record (.deleteType a)) t =
      (.ok (), { t.withSchema schema' with mutations := t.mutations ++ [.deleteType a] }) := by
    rw [outcome_bind, outcome_editSchema, hs']
    rfl
  exact ⟨_, perform_allowed rfl hc hdone, typeDeleted_of_without h.working hw hc'.indexed⟩

end Transaction

namespace Session

open State Transaction

variable {config : SessionConfig} {ids : Option IdSource} {journal : Option Journal} {s : Session} {es : List Event}
  {t : Transaction}

/-- **A type is deleted** unless something depends on it, and then nothing else is. -/
theorem deleted_unless_depended_on (hs : start config ids journal = .ok s) (hfit : s.issued es < 2 ^ 64)
    (hw : (s.run es).writer = some t) (a : TypeId) :
    ((∃ r, (t.perform (.deleteType a)).1 = .ok r) ↔ t.working.Deletable a) ∧
      (t.working.Deletable a → t.working.TypeDeleted (t.perform (.deleteType a)).2.working a) ∧
      (¬ t.working.Deletable a → (t.perform (.deleteType a)).2 = t) := by
  have h := (run_sound hs hfit (List.prefix_refl _)).writer hw
  have hst := ((run_straysApart hs hfit).writer t hw).working
  rw [← h.working.checkDeleteType_iff hst]
  cases hc : t.working.checkDeleteType a with
  | ok u =>
    obtain ⟨t', hperf, hdel⟩ := perform_deleteType h hc
    rw [hperf]
    exact ⟨iff_of_true ⟨_, rfl⟩ rfl, fun _ => hdel, fun hno => absurd rfl hno⟩
  | error err =>
    rw [perform_refused rfl hc]
    exact ⟨iff_of_false (by simp) (by simp), fun hno => absurd hno (by simp), fun _ => rfl⟩

/-- a person, who may have a name and may work -/
def idlePerson : List Event :=
  [.begin, .perform (.putEntityType "person"), .perform (.putAttributeType "name" (some .string)),
    .perform (.has ⟨6⟩ ⟨7⟩), .perform (.putRole "worker"), .perform (.plays ⟨6⟩ ⟨11⟩), .perform (.createEntity ⟨6⟩)]

set_option maxRecDepth 10000 in
/-- names go with the relation type that records who has which; what the person plays stays, and so does the person -/
theorem idlePerson_name_deleted : blank.issued idlePerson < 2 ^ 64 ∧ ∃ t, (blank.run idlePerson).writer = some t ∧
    t.working.Deletable ⟨7⟩ ∧ t.working.schema.Gone ⟨7⟩ ⟨8⟩ ∧
      t.working.TypeDeleted (t.perform (.deleteType ⟨7⟩)).2.working ⟨7⟩ ∧
      ¬ t.working.Deletable ⟨6⟩ ∧ (t.perform (.deleteType ⟨6⟩)).2 = t := by
  have hfit : blank.issued idlePerson < 2 ^ 64 := by decide +kernel
  have hfound : (blank.run idlePerson).writer.map (fun t =>
      (t.working.schema.implicitForOwned? ⟨7⟩, (t.perform (.deleteType ⟨7⟩)).1.toOption,
        (t.perform (.deleteType ⟨6⟩)).1.toOption)) = some (some ⟨⟨7⟩, ⟨8⟩, ⟨9⟩, ⟨10⟩⟩, some .done, none) := by
    decide +kernel
  obtain ⟨t, hw, ht⟩ := Option.map_eq_some_iff.1 hfound
  simp only [Prod.mk.injEq, toOption_eq_some, toOption_eq_none] at ht
  obtain ⟨hrec, hdone, _, hrefused⟩ := ht
  obtain ⟨hname, hdeleted, -⟩ := deleted_unless_depended_on start_testing hfit hw ⟨7⟩
  obtain ⟨hperson, -, hsame⟩ := deleted_unless_depended_on start_testing hfit hw ⟨6⟩
  have hno : ¬ t.working.Deletable ⟨6⟩ := mt hperson.2 (by simp [hrefused])
  have hyes := hname.1 ⟨_, hdone⟩
  exact ⟨hfit, t, hw, hyes, Or.inr ⟨_, hrec, Or.inl rfl⟩, hdeleted hyes, hno, hsame hno⟩

end Session

end ConceptGraph
