/-
Schema operations in a transaction, one by one: each is refused and changes nothing, or it is done, which is a
`SchemaStep`. What the rules have said of the working state is what the later stages of an operation rely on.

- `Transaction.Sound`: the working state and the savepoints are sound, and the next identifier is the next one.
- `SchemaDone`: an operation that is done; savepoints stay.
- The operations on one definition come first, then those on several elements: `putType`, `setLabel`, `setSupertype`,
  `deleteType`, and the declarations of ownership.
-/
import ConceptGraph.Proofs.Transaction.EditRuns
import ConceptGraph.Proofs.State.Needs
import ConceptGraph.Proofs.State.Steps

namespace ConceptGraph

open Std

namespace Transaction

open State

/-- what holds of an open transaction at all times, after `n` identifiers have been drawn from `first` on -/
structure Sound (first : UInt64) (n : Nat) (t : Transaction) : Prop where
  ids : t.ids.next = first + UInt64.ofNat n
  working : t.working.Sound first n
  savepoints : ∀ (name : String) (sp : Savepoint), t.savepoints[name]? = some sp → sp.state.Sound first n

/-- an operation on the schema that is done -/
def SchemaDone (first : UInt64) (n : Nat) (lost : TypeId → Prop) (t t' : Transaction) : Prop :=
  ∃ k ≤ 3, t'.ids.next = t.ids.next + UInt64.ofNat k ∧ t'.savepoints = t.savepoints ∧
    SchemaStep first n k lost t.working t'.working

variable {α : Type} {first : UInt64} {n : Nat} {t : Transaction} {a role owned : TypeId} {d d' : TypeDef} {m : Mutation}

theorem SchemaDone.refl (h : t.Sound first n) : SchemaDone first n NoneLost t t :=
  ⟨0, Nat.zero_le 3, by simp, rfl, .refl h.working⟩

theorem SchemaDone.of_step {lost : TypeId → Prop} {s : State}
    (h : SchemaStep first n 0 lost t.working s) (ms : List Mutation) :
    SchemaDone first n lost t { t with working := s, mutations := ms } :=
  ⟨0, Nat.zero_le 3, by simp, rfl, h⟩

/-! ## One definition -/

/-- a change of one definition goes through -/
theorem Done.change {f : TypeDef → TypeDef} (hd : t.working.schema.get? a = some d)
    (h : SchemaStep first n 0 NoneLost t.working
      { t.working with schema := t.working.schema.redefine a (f d) }) :
    Done (do Transaction.editSchema fun schema => schema.change a f; Transaction.record m) t
      fun _ t' => SchemaDone first n NoneLost t t' :=
  Done.editSchema (Schema.change_eq_ok.2 ⟨d, hd, rfl⟩) (Done.record_last (SchemaDone.of_step h _))

theorem Does.change {f : TypeDef → TypeDef} (hd : t.working.schema.get? a = some d)
    (h : SchemaStep first n 0 NoneLost t.working
      { t.working with schema := t.working.schema.redefine a (f d) }) :
    Does n (do editSchema fun schema => schema.change a f; record m) t
      fun _ t' => SchemaDone first n NoneLost t t' := (Done.change hd h).does

theorem setAbstract_does (h : t.Sound first n) (a : TypeId) (isAbstract : Bool) :
    Does n (setAbstract a isAbstract) t fun _ t' => SchemaDone first n NoneLost t t' := by
  unfold setAbstract
  refine .ask fun _ hc => .ask fun d hd => ?_
  rw [Schema.require_eq_ok] at hd
  simp only [checkSetAbstract, bind_eq_ok, editableThingType_eq_ok, if_throw_eq_ok] at hc
  obtain ⟨e, ⟨he, -⟩, hcount, -⟩ := hc
  obtain rfl := Option.some.inj (hd.symm.trans he.1)
  split
  · have hs : d.SameRefs { d with isAbstract := isAbstract } :=
      ⟨rfl, rfl, rfl, fun _ => Iff.rfl, fun _ => Iff.rfl, fun _ => Iff.rfl⟩
    refine .change hd (h.working.redefine_body_step he hs (.of_sameRefs hs ?_ (fun hne => absurd rfl hne)
      fun p hp hn => absurd hp hn))
    intro hab hnot id b hb hbt
    refine hcount ⟨hab, by simpa using hnot, ?_⟩
    exact (Graph.countOfType_pos h.working.indexed).2 ⟨id, b, hb, hbt⟩
  · exact .pure (.refl h)

theorem setDataType_does (h : t.Sound first n) (a : TypeId) (v : DataType) :
    Does n (setDataType a v) t fun _ t' => SchemaDone first n NoneLost t t' := by
  unfold setDataType
  refine .ask fun _ hc => .ask fun d hd => ?_
  rw [Schema.require_eq_ok] at hd
  simp only [checkSetDataType, bind_eq_ok, editable_eq_ok] at hc
  obtain ⟨e, ⟨he, hk⟩, hc⟩ := hc
  obtain rfl := Option.some.inj (hd.symm.trans he.1)
  split
  · rename_i hne
    have hs := d.setDataType_sameRefs (some v)
    obtain ⟨hab, hre⟩ := d.setDataType_other (some v)
    split at hc
    · simp [throw_ne_ok] at hc
    rename_i hinst
    refine .change hd (h.working.redefine_body_step he hs (.of_sameRefs hs ?_ (fun _ => ⟨?_, ?_⟩) ?_))
    · exact fun h₁ h₂ => absurd (hab ▸ h₁) h₂
    · intro id b hb hb'
      exact hinst ((hasInstances_iff h.working.coherent.indexed h.working.indexed).2 ⟨id, b, hb, hb'⟩)
    · intro x u w hx hxa hu hw
      rw [TypeDef.dataType?_setDataType hk] at hu
      obtain rfl := Option.some.inj hu
      obtain ⟨o, ho, how⟩ := Option.bind_eq_some_iff.1 hw
      split at hc
      · rename_i current hcur
        simp only [if_else_throw_eq_ok] at hc
        exact absurd (hc.1 ▸ hcur) hne
      · simp only [bind_eq_ok, checkEach_eq_ok] at hc
        obtain ⟨-, hall, -⟩ := hc
        have hmem : x ∈ t.working.schema.supertypes a ++ t.working.schema.subtypes a :=
          List.mem_append.2 (hx.imp_right h.working.coherent.indexed.mem_subtypes.2)
        have := hall x hmem
        simp only [bind, ho, how, Option.bind_some, ite_eq_left_iff, reduceCtorEq, imp_false, not_not] at this
        exact this.symm
    · exact fun p hp hn => absurd (hre ▸ hp) hn
  · exact .pure (.refl h)

theorem setRegex_does (h : t.Sound first n) (a : TypeId) (source : String) :
    Does n (setRegex a source) t fun _ t' => SchemaDone first n NoneLost t t' := by
  unfold setRegex
  refine .ask fun pattern hc => ?_
  simp only [checkSetRegex, bind_eq_ok, editable_eq_ok, if_throw_bind_eq_ok, checkEach_eq_ok, pure_eq_ok] at hc
  obtain ⟨d, ⟨he, hk⟩, -, pattern', -, -, hall, rfl⟩ := hc
  have hs := d.setRegex_sameRefs (some pattern')
  obtain ⟨hab, hdt⟩ := d.setRegex_other (some pattern')
  refine .change he.1 (h.working.redefine_body_step he hs (.of_sameRefs hs ?_ (fun hne => absurd hdt hne) ?_))
  · exact fun h₁ h₂ => absurd (hab ▸ h₁) h₂
  · intro p hp _ id b v text hb hv htext ha
    rw [TypeDef.regex?_setRegex hk] at hp
    obtain rfl := Option.some.inj hp
    obtain ⟨th, hth, rfl⟩ := Graph.get?_of_bare? hb
    rw [Thing.bare_type] at ha
    rw [Thing.bare_value?] at hv
    have := hall (id, th) ((mem_instances h.working.coherent.indexed h.working.indexed).2 ⟨hth, ha⟩)
    simpa [bind, hv, htext] using this

theorem unsetRegex_does (h : t.Sound first n) (a : TypeId) :
    Does n (unsetRegex a) t fun _ t' => SchemaDone first n NoneLost t t' := by
  unfold unsetRegex
  refine .ask fun _ hc => .ask fun d hd => ?_
  rw [Schema.require_eq_ok] at hd
  simp only [checkUnsetRegex, bind_eq_ok, editable_eq_ok] at hc
  obtain ⟨e, ⟨he, hk⟩, -⟩ := hc
  obtain rfl := Option.some.inj (hd.symm.trans he.1)
  split
  · have hs := d.setRegex_sameRefs none
    obtain ⟨hab, hdt⟩ := d.setRegex_other none
    refine .change hd (h.working.redefine_body_step he hs (.of_sameRefs hs ?_ (fun hne => absurd hdt hne) ?_))
    · exact fun h₁ h₂ => absurd (hab ▸ h₁) h₂
    · intro p hp
      rw [TypeDef.regex?_setRegex hk] at hp
      simp at hp
  · exact .pure (.refl h)

theorem unkey_does (h : t.Sound first n) (a owned : TypeId) :
    Does n (unkey a owned) t fun _ t' => SchemaDone first n NoneLost t t' := by
  unfold unkey
  refine .ask fun _ hc => .ask fun d hd => ?_
  rw [Schema.require_eq_ok] at hd
  simp only [checkHas, bind_eq_ok, editableThingType_eq_ok] at hc
  obtain ⟨e, ⟨he, -⟩, -⟩ := hc
  obtain rfl := Option.some.inj (hd.symm.trans he.1)
  split
  · rename_i hkey
    have hs : d.SameRefs { d with owns := d.owns.insert owned .has } := by
      refine ⟨rfl, rfl, rfl, fun _ => Iff.rfl, fun _ => Iff.rfl, fun x => ?_⟩
      rw [ExtTreeMap.mem_insert, compare_iff]
      apply or_iff_right_of_imp
      rintro rfl
      exact ExtTreeMap.mem_iff_isSome_getElem?.2 (by rw [hkey]; rfl)
    exact .change hd (h.working.redefine_body_step he hs (.of_sameRefs hs (fun h₁ h₂ => absurd h₁ h₂)
      (fun hne => absurd rfl hne) fun p hp hn => absurd hp hn))
  · exact .pure (.refl h)

theorem plays_does (h : t.Sound first n) (a role : TypeId) :
    Does n (plays a role) t fun _ t' => SchemaDone first n NoneLost t t' := by
  unfold plays
  refine .ask fun _ hc => .ask fun d hd => ?_
  rw [Schema.require_eq_ok] at hd
  simp only [checkPlays, bind_eq_ok, editableThingType_eq_ok, editable_eq_ok] at hc
  obtain ⟨d', ⟨he, -⟩, e, ⟨hr, hk⟩, -⟩ := hc
  obtain rfl := Option.some.inj (hd.symm.trans he.1)
  split
  · exact .change hd (h.working.plays_step he hr hk)
  · exact .pure (.refl h)

theorem unplay_does (h : t.Sound first n) (a role : TypeId) :
    Does n (unplay a role) t fun _ t' => SchemaDone first n NoneLost t t' := by
  unfold unplay
  refine .ask fun _ hc => .ask fun d hd => ?_
  rw [Schema.require_eq_ok] at hd
  have hargs := hc
  simp only [checkUnplay, bind_eq_ok, editableThingType_eq_ok, editable_eq_ok] at hargs
  obtain ⟨d', ⟨he, hthing⟩, e, ⟨hr, hk⟩, -⟩ := hargs
  obtain rfl := Option.some.inj (hd.symm.trans he.1)
  have hfree := (checkUnplay_decides h.working he hthing hr hk).kept.1 ⟨_, hc⟩
  split
  · rename_i hcontains
    refine .change hd (h.working.unplay_step he hr fun r p c hp hc ht => ?_)
    obtain ⟨th, hth, rfl⟩ := Graph.get?_of_bare? hc
    rw [Thing.bare_type] at ht ⊢
    by_contra hno
    exact hfree ⟨⟨d, hd, hcontains⟩, p, th, r, hth, ht, hp, playsWithout_eq_false_iff.1 (Bool.eq_false_iff.2 hno)⟩
  · exact .pure (.refl h)

theorem relates_does (h : t.Sound first n) (a role : TypeId) :
    Does n (relates a role) t fun _ t' => SchemaDone first n NoneLost t t' := by
  unfold relates
  refine .ask fun _ hc => .ask fun d hd => ?_
  rw [Schema.require_eq_ok] at hd
  simp only [checkRelates, bind_eq_ok, editable_eq_ok] at hc
  obtain ⟨d', ⟨he, hrel⟩, e, ⟨hr, hk⟩, -⟩ := hc
  obtain rfl := Option.some.inj (hd.symm.trans he.1)
  split
  · exact .change hd (h.working.relates_step he hrel hr hk)
  · exact .pure (.refl h)

theorem unrelate_does (h : t.Sound first n) (a role : TypeId) :
    Does n (unrelate a role) t fun _ t' => SchemaDone first n NoneLost t t' := by
  unfold unrelate
  refine .ask fun _ hc => .ask fun d hd => ?_
  rw [Schema.require_eq_ok] at hd
  have hargs := hc
  simp only [checkUnrelate, bind_eq_ok, editable_eq_ok] at hargs
  obtain ⟨d', ⟨he, hrel⟩, e, ⟨hr, hk⟩, -⟩ := hargs
  obtain rfl := Option.some.inj (hd.symm.trans he.1)
  have hfree := (checkUnrelate_decides h.working he hrel hr hk).kept.1 ⟨_, hc⟩
  split
  · rename_i hrelates
    refine .change hd (h.working.unrelate_step he fun r b p hb hp ht => ?_)
    obtain ⟨th, hth, rfl⟩ := Graph.get?_of_bare? hb
    rw [Thing.bare_type] at ht ⊢
    by_contra hno
    exact hfree ⟨⟨d, hd, hrelates⟩, r, th, p, hth, ht, hp, relatesWithout_eq_false_iff.1 (Bool.eq_false_iff.2 hno)⟩
  · exact .pure (.refl h)

/-! ## Ownership -/

/-- a record takes three identifiers -/
theorem draws_record {f g : TypeId → TypeId → TypeId → Schema → Except ConceptError Schema} : Draws 3 (do
    let relation ← newType
    let ownerRole ← newType
    let valueRole ← newType
    editSchema (f relation ownerRole valueRole)
    editSchema (g relation ownerRole valueRole)
    record m) :=
  draws_newType fun _ => draws_newType fun _ => draws_newType fun _ => Keeps.draws <|
    (keeps_editSchema _).bind fun _ => (keeps_editSchema _).bind fun _ => keeps_record _

/-- a declaration of ownership goes through, with its record if it is the first one -/
theorem declareOwnership_settles {e : TypeDef} (h : t.Sound first n) (he : t.working.Editable a d)
    (ho : t.working.Editable owned e) (hk : e.kind = .attribute) (ownership : Ownership) :
    Settles n (do declareOwnership a owned ownership; record m) t fun _ t' => SchemaDone first n NoneLost t t' := by
  simp only [declareOwnership, ensureImplicit, bind_assoc]
  refine .look ?_
  cases hrec : t.working.schema.implicitForOwned? owned with
  | some r =>
    simp only [pure_bind]
    obtain ⟨hrec, rfl⟩ := h.working.recorded.implicitForOwned?.1 hrec
    exact (Done.change he.1 (h.working.own_step he hrec ownership)).settles
  | none =>
    simp only [bind_assoc, pure_bind]
    refine .ask (Schema.require_eq_ok.2 ho.1) (.draw draws_record (by decide) fun hn => ?_)
    refine .newType (.newType (.newType ?_))
    have hnext : t.ids.next + 1 = first + UInt64.ofNat (n + 1) := by rw [h.ids, next_offset]
    have hnext' : t.ids.next + 1 + 1 = first + UInt64.ofNat (n + 2) := by rw [hnext, next_offset]
    obtain ⟨schema', hs', hstep, hrec', hedit⟩ :=
      h.working.record_step hn (r := ⟨owned, ⟨t.ids.next⟩, ⟨t.ids.next + 1⟩, ⟨t.ids.next + 1 + 1⟩⟩) ho hk hrec h.ids
        hnext hnext'
    apply Done.editSchema hs'
    obtain ⟨d', he'⟩ := hedit a d he
    refine Done.editSchema (Schema.change_eq_ok.2 ⟨d', he'.1, rfl⟩) (Done.record_last ?_)
    refine ⟨3, Nat.le_refl 3, ?_, rfl, hstep.trans (hstep.sound.own_step he' hrec' ownership)⟩
    show t.ids.next + 1 + 1 + 1 = _
    rw [hnext', next_offset, h.ids, UInt64.add_assoc, ← UInt64.ofNat_add]

theorem has_does (h : t.Sound first n) (a owned : TypeId) :
    Does n (has a owned) t fun _ t' => SchemaDone first n NoneLost t t' := by
  unfold has
  refine .ask fun _ hc => .ask fun d hd => ?_
  rw [Schema.require_eq_ok] at hd
  simp only [checkHas, bind_eq_ok, editableThingType_eq_ok, editable_eq_ok] at hc
  obtain ⟨d', ⟨he, -⟩, e, ⟨ho, hk⟩, -⟩ := hc
  split
  · exact (declareOwnership_settles h he ho hk .has).does
  · exact .pure (.refl h)

theorem key_does (h : t.Sound first n) (a owned : TypeId) :
    Does n (key a owned) t fun _ t' => SchemaDone first n NoneLost t t' := by
  unfold key
  refine .ask fun _ hc => .ask fun d hd => ?_
  rw [Schema.require_eq_ok] at hd
  simp only [checkKey, bind_eq_ok, editableThingType_eq_ok, editable_eq_ok] at hc
  obtain ⟨d', ⟨he, -⟩, e, ⟨ho, hk⟩, -⟩ := hc
  split
  · exact (declareOwnership_settles h he ho hk .key).does
  · exact .pure (.refl h)

theorem unhas_does (h : t.Sound first n) (a owned : TypeId) :
    Does n (unhas a owned) t fun _ t' => SchemaDone first n NoneLost t t' := by
  unfold unhas
  refine .ask fun _ hc => .look (.ask fun d hd => ?_)
  rw [Schema.require_eq_ok] at hd
  have hargs := hc
  simp only [checkUnhas, bind_eq_ok, editableThingType_eq_ok, editable_eq_ok] at hargs
  obtain ⟨d', ⟨he, hthing⟩, e, ⟨ho, hk⟩, -⟩ := hargs
  obtain rfl := Option.some.inj (hd.symm.trans he.1)
  have hfree := (checkUnhas_decides h.working he hthing ho hk).kept.1 ⟨_, hc⟩
  split
  · rename_i hcontains
    have howns : owned ∈ d.owns := hcontains
    obtain ⟨r, hrec, rfl⟩ := h.working.recorded.owned a owned ⟨d, hd, howns⟩
    have hlook : t.working.schema.implicitForOwned? r.owned = some r := hrec
    simp only [hlook]
    refine .change hd (h.working.disown_step he hrec fun q x o c bo bc hedge hbo hbc hto hrc => ?_)
    obtain ⟨tho, htho, rfl⟩ := Graph.get?_of_bare? hbo
    obtain ⟨thc, hthc, rfl⟩ := Graph.get?_of_bare? hbc
    rw [Thing.bare_type] at hto hrc ⊢
    rw [Thing.bare_type]
    by_contra hno
    have hheld : c ∈ t.working.attributesOf o := mem_attributesOf.2 ⟨⟨x, o, c⟩,
      (mem_ownershipsOf h.working.recorded h.working.indexed h.working.instances).2 ⟨rfl, q, hedge⟩, rfl⟩
    exact hfree ⟨⟨d, hd, howns⟩, o, tho, c, thc, htho, hto, hheld, hthc, hrc,
      ownershipWithout_eq_none_iff.1 (Option.not_isSome_iff_eq_none.1 hno)⟩
  · exact .pure (.refl h)

/-! ## Several elements -/

/-- the label is one that a user may give -/
theorem checkLabel_ok {l : String} {limit : Nat} {u : Unit} (h : checkLabel l limit = .ok u) :
    ¬ Label.isReserved l ∧ Label.scopeMark ∉ l.toList := by
  simp only [checkLabel, if_throw_eq_ok, List.contains_iff_mem] at h
  obtain ⟨-, hl, hun, -⟩ := h
  exact ⟨hl, hun⟩

/-- a new element of a user -/
theorem insert_step {s : State} {l : String} {body : TypeBody} {x : TypeId} (h : s.Sound first n) (hn : n + 1 < 2 ^ 64)
    (hx : x.raw = first + UInt64.ofNat n) (hl : ¬ Label.isReserved l) (hun : Label.scopeMark ∉ l.toList)
    (hfree : s.schema.idOf? l = none) (hno : ∀ y, ¬ (TypeDef.blank l body).RefersTo y)
    (hfor : (TypeDef.blank l body).implicitFor? = none) :
    ∃ schema', s.schema.insert x (.blank l body) (s.schema.metaTypes.ofKind body.kind) = .ok schema' ∧
      SchemaStep first n 1 NoneLost s { s with schema := schema' } := by
  have hnone := h.get?_next hx (by omega) (Nat.le_refl n)
  obtain ⟨e, he, hk⟩ := h.coherent.ofKind_hasKind body.kind
  obtain ⟨schema', hs'⟩ := Schema.insert_total (d := .blank l body) h.coherent.indexed hnone hfree he
    (by rw [TypeDef.isRole, TypeDef.isRole, hk]; rfl)
  exact ⟨schema', hs', h.extend_step (h.insert_extends hs' hx (by omega))
    (h.insert hs' hx (by omega) rfl hl hun hno hfor)⟩

theorem putType_does (h : t.Sound first n) (l : String) (body : TypeBody)
    (hno : ∀ y, ¬ (TypeDef.blank l body).RefersTo y) (hfor : (TypeDef.blank l body).implicitFor? = none) :
    Does n (putType l body) t fun _ t' => SchemaDone first n NoneLost t t' := by
  unfold putType
  refine .ask fun found _ => ?_
  cases found with
  | some x => exact .pure (.refl h)
  | none =>
    refine .look (.get (.ask fun _ hc => ?_))
    simp only [checkNewType, bind_eq_ok, Schema.checkLabelFree_eq_ok] at hc
    obtain ⟨_, hl, _, hfree, -⟩ := hc
    obtain ⟨hl, hun⟩ := checkLabel_ok hl
    replace hfree : t.working.schema.idOf? l = none :=
      Option.eq_none_iff_forall_ne_some.2 fun x hx => by simpa using hfree x hx
    refine .draw (m := 1) (draws_newType fun _ => Keeps.draws ?_) (by decide) fun hn => ?_
    · refine (keeps_editSchema _).bind fun _ => (keeps_record _).bind fun _ => ?_
      dsimp only
      split
      · exact (keeps_record _).bind fun _ => keeps_pure _
      · exact keeps_pure _
    · obtain ⟨schema', hs', hstep⟩ := insert_step (x := ⟨t.ids.next⟩) h.working hn h.ids hl hun hfree hno hfor
      refine .newType (.editSchema hs' (.record ?_))
      have hids : t.ids.next + 1 = t.ids.next + UInt64.ofNat 1 := rfl
      dsimp only
      split
      · exact .record (.pure ⟨1, by decide, hids, rfl, hstep⟩)
      · exact .pure ⟨1, by decide, hids, rfl, hstep⟩

/-- nothing refers to another element yet -/
theorem blank_refers_to_nothing {l : Label} {body : TypeBody} (hb : ∀ x, ¬ (TypeDef.blank l body).relatesRole x) (x : TypeId) :
    ¬ (TypeDef.blank l body).RefersTo x := by
  intro hcase
  rcases hcase with hx | hx | hx
  · exact TypeDef.not_mem_blank_plays hx
  · exact hb x hx
  · exact TypeDef.not_mem_blank_owns hx

theorem putEntityType_does (h : t.Sound first n) (l : String) :
    Does n (putEntityType l) t fun _ t' => SchemaDone first n NoneLost t t' :=
  putType_does h l .entity (blank_refers_to_nothing fun _ => Bool.false_ne_true) rfl

theorem putRelationType_does (h : t.Sound first n) (l : String) :
    Does n (putRelationType l) t fun _ t' => SchemaDone first n NoneLost t t' :=
  putType_does h l (.relation ∅ none) (blank_refers_to_nothing fun x => by
    simp [TypeDef.relatesRole, TypeDef.relates?, TypeDef.blank]) rfl

theorem putRole_does (h : t.Sound first n) (l : String) :
    Does n (putRole l) t fun _ t' => SchemaDone first n NoneLost t t' :=
  putType_does h l .role (blank_refers_to_nothing fun _ => Bool.false_ne_true) rfl

theorem putAttributeType_does (h : t.Sound first n) (l : String) (dataType : Option DataType) :
    Does n (putAttributeType l dataType) t fun _ t' => SchemaDone first n NoneLost t t' := by
  unfold putAttributeType
  refine .ask fun found _ => ?_
  cases found with
  | none => exact putType_does h l (.attribute dataType none) (blank_refers_to_nothing fun _ => Bool.false_ne_true) rfl
  | some x =>
    cases dataType with
    | none => exact .pure (.refl h)
    | some v =>
      refine .look ?_
      dsimp only
      split
      · exact .andReturn (f := fun _ => x) (setDataType_does h x v)
      · exact .pure (.refl h)

theorem setLabel_does (h : t.Sound first n) (a : TypeId) (l : String) :
    Does n (setLabel a l) t fun _ t' => SchemaDone first n NoneLost t t' := by
  unfold setLabel
  refine .get (.ask fun _ hc => .ask fun d hd => ?_)
  rw [Schema.require_eq_ok] at hd
  simp only [checkSetLabel, bind_eq_ok, editableAny_eq_ok, Schema.checkLabelFree_eq_ok, Option.some.injEq] at hc
  obtain ⟨d', he, _, hl, _, hfree, hrec⟩ := hc
  obtain rfl := Option.some.inj (hd.symm.trans he.1)
  obtain ⟨hl, hun⟩ := checkLabel_ok hl
  split
  · obtain ⟨schema', hs'⟩ := Schema.relabelAll_total h.working.coherent.indexed h.working.recorded hd hl hun hfree
      (fun r hr => by
        simp only [hr, bind_eq_ok, Schema.checkLabelFree_eq_ok, Option.some.injEq] at hrec
        obtain ⟨-, h₁, -, h₂, h₃⟩ := hrec
        exact ⟨h₁, h₂, h₃⟩)
    obtain ⟨hsame, hc', hr'⟩ := Schema.relabelAll_spec h.working.coherent h.working.recorded hd he.2.1 he.2.2 hl hun hs'
    exact (Done.editSchema hs' (Done.record_last (SchemaDone.of_step (h.working.extend_step (k := 0)
      (extends_of_sameButLabels hsame) (h.working.relabel hsame hc' hr')) _))).does
  · exact .pure (.refl h)

theorem setSupertype_does (h : t.Sound first n) (a p : TypeId) :
    Does n (setSupertype a p) t fun _ t' => SchemaDone first n NoneLost t t' := by
  unfold setSupertype
  refine .ask fun _ hc => .look ?_
  obtain ⟨hap, hc⟩ := checkSetSupertype_eq_ok.1 hc
  split
  · rename_i hne
    obtain ⟨-, old, moved, hm, hconf⟩ := hc.resolve_left hne
    have hmove : (do pure (← t.working.schema.reparent a p).2 : Except ConceptError Schema) = .ok moved := by
      rw [hm]
      rfl
    exact (Done.editSchema hmove (Done.record_last (SchemaDone.of_step
      (h.working.reparent_step hm (hap.coherent h.working hm) (hap.recorded h.working hm) hconf) _))).does
  · exact .pure (.refl h)

theorem deleteType_does (h : t.Sound first n) (a : TypeId) :
    Does n (deleteType a) t fun _ t' => SchemaDone first n (t.working.RecordedBy a) t t' := by
  unfold deleteType
  refine .ask fun _ hc => ?_
  obtain ⟨d, he, hsub, hcount, hfilled⟩ := checkDeleteType_eq_ok.1 hc
  have hleaf := h.working.coherent.indexed.directSubtypes_eq_nil.1 hsub
  obtain ⟨schema', hs', hw, hc', hr'⟩ :=
    Schema.removeAll_spec h.working.coherent h.working.recorded he.1 he.2.1 he.2.2 hleaf
  refine (Done.editSchema hs' (Done.record_last (SchemaDone.of_step
    (h.working.without_step hw hc' hr' hleaf ?_ ?_) _))).does
  · exact fun id b hb hba => hcount ((Graph.countOfType_pos h.working.indexed).2 ⟨id, b, hb, hba⟩)
  · intro d' hd' hk
    obtain rfl := Option.some.inj (hd'.symm.trans he.1)
    exact hfilled hk

end Transaction

end ConceptGraph
