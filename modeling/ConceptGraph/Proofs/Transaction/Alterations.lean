/-
What a schema operation makes of the schema, told once for all of them. What holds of every schema is then a matter of
four cases, whatever the operation.

- `Enriched`: more elements and more declarations, but no regex on what is new.
- `Revision`: one definition is replaced. A data type may be declared where there was none and no instance, a regex
  where the data type is string, and nothing but `unhas` takes an attribute type from what is owned.
- `alters`: any schema operation that is done is one of these, or the deletion of a type.
-/
import ConceptGraph.Proofs.Transaction.Performing

namespace ConceptGraph

open Std

namespace Schema

variable {s s' s'' : Schema} {t p : TypeId} {d d' d'' : TypeDef} {old : TypeId → Prop}

/-! ## More declarations -/

theorem DeclaresAll.trans (h : DeclaresAll d d') (h' : DeclaresAll d' d'') : DeclaresAll d d'' where
  kind := h'.kind.trans h.kind
  isAbstract hd := h.isAbstract (h'.isAbstract hd)
  plays x hx := h'.plays x (h.plays x hx)
  relates x hx := h'.relates x (h.relates x hx)
  owns x hx := h'.owns x (h.owns x hx)
  dataType := h'.dataType.trans h.dataType
  regex := h'.regex.trans h.regex

/-- one more role that is played, and one more attribute type that is owned -/
theorem DeclaresAll.owning (d : TypeDef) (role owned : TypeId) (ownership : Ownership) :
    DeclaresAll d { d with plays := d.plays.insert role, owns := d.owns.insert owned ownership } :=
  ⟨rfl, id, fun _ hx => mem_set_insert.2 (Or.inr hx), fun _ => id, fun _ hx => ExtTreeMap.mem_insert.2 (Or.inr hx),
    rfl, rfl⟩

theorem Extends.refl (old : TypeId → Prop) (s : Schema) : s.Extends old s :=
  ⟨fun _ d hd => ⟨d, hd, .refl d⟩, fun _ _ hn => hn, fun _ _ _ => rfl, fun _ _ => rfl⟩

theorem Extends.trans (h : s.Extends old s') (h' : s'.Extends old s'') : s.Extends old s'' := by
  refine ⟨fun t d hd => ?_, fun t ht hn => h'.undefined t ht (h.undefined t ht hn), fun t d hd => ?_,
    fun t ht => (h'.byRelation t ht).trans (h.byRelation t ht)⟩
  · obtain ⟨d', hd', hle⟩ := h.defs t d hd
    obtain ⟨d'', hd'', hle'⟩ := h'.defs t d' hd'
    exact ⟨d'', hd'', hle.trans hle'⟩
  · obtain ⟨d', hd', -⟩ := h.defs t d hd
    exact (h'.parents t d' hd').trans (h.parents t d hd)

/-- a schema that declares at least what another one does; the new elements have no regex -/
structure Enriched (old : TypeId → Prop) (s s' : Schema) : Prop where
  declares : s.Extends old s'
  metas : s'.metaTypes = s.metaTypes
  plain : ∀ t d, s.get? t = none → s'.get? t = some d → d.regex? = none

theorem Enriched.refl (old : TypeId → Prop) (s : Schema) : s.Enriched old s :=
  ⟨.refl old s, rfl, fun _ _ hn hd => by simp [hn] at hd⟩

theorem Enriched.trans (h : s.Enriched old s') (h' : s'.Enriched old s'') : s.Enriched old s'' := by
  refine ⟨h.declares.trans h'.declares, h'.metas.trans h.metas, fun t d hn hd => ?_⟩
  cases hd' : s'.get? t with
  | none => exact h'.plain t d hd' hd
  | some e =>
    obtain ⟨e', he', hle⟩ := h'.declares.defs t e hd'
    rw [Option.some.inj (hd.symm.trans he'), hle.regex]
    exact h.plain t e hn hd'

/-- a definition that declares more -/
theorem redefine_enriched (hd : s.get? t = some d) (h : DeclaresAll d d') : s.Enriched old (s.redefine t d') := by
  have hget := get?_redefine s t d'
  refine ⟨⟨fun x e he => ?_, fun x _ hn => ?_, fun _ _ _ => rfl, fun _ _ => rfl⟩, rfl, fun x e hn he => ?_⟩
  · by_cases hx : x = t
    · subst hx
      obtain rfl := Option.some.inj (hd.symm.trans he)
      exact ⟨d', by rw [hget, if_pos rfl], h⟩
    · exact ⟨e, by rw [hget, if_neg hx, he], .refl e⟩
  · have hx : x ≠ t := by
      rintro rfl
      simp [hd] at hn
    rw [hget, if_neg hx, hn]
  · have hx : x ≠ t := by
      rintro rfl
      simp [hd] at hn
    rw [hget, if_neg hx, hn] at he
    simp at he

end Schema

namespace State

variable {s : State} {schema' : Schema} {first : UInt64} {n : Nat} {t p : TypeId} {d d' : TypeDef}

/-- a new element of a user enriches the schema -/
theorem Sound.insert_enriched (h : s.Sound first n) (hi : s.schema.insert t d p = .ok schema')
    (ht : t.raw = first + UInt64.ofNat n) (hn : n < 2 ^ 64) (hre : d.regex? = none) :
    s.schema.Enriched (fun t => Issued first n t.raw) schema' := by
  refine ⟨h.insert_extends hi ht hn, (Schema.tables_insert hi).1, fun x e hx he => ?_⟩
  rw [Schema.get?_insert hi] at he
  split at he
  · rw [← Option.some.inj he, hre]
  · rw [hx] at he
    simp at he

/-- and so does a new record -/
theorem Sound.record_enriched (h : s.Sound first n) {r : ImplicitOwnership} (hw : s.schema.WithRecord schema' r d)
    (hd : s.schema.get? r.owned = some d) (hmade : ∀ x, r.Made x → ¬ Issued first n x.raw) :
    s.schema.Enriched (fun t => Issued first n t.raw) schema' := by
  refine ⟨h.record_extends hw hd hmade, hw.metas, fun x e hx he => ?_⟩
  by_cases hm : r.Made x
  · rcases hm with rfl | rfl | rfl
    · rw [← Option.some.inj (hw.relation.symm.trans he)]
      rfl
    · rw [← Option.some.inj (hw.ownerRole.symm.trans he)]
      rfl
    · rw [← Option.some.inj (hw.valueRole.symm.trans he)]
      rfl
  · have hxo : x ≠ r.owned := by
      rintro rfl
      simp [hd] at hx
    rw [hw.other x hxo hm, hx] at he
    simp at he

/-- and other labels -/
theorem enriched_of_sameButLabels {old : TypeId → Prop} (hx : s.schema.SameButLabels schema') :
    s.schema.Enriched old schema' := by
  refine ⟨extends_of_sameButLabels hx, hx.metas, fun x e hn he => ?_⟩
  obtain ⟨e', he', -⟩ := hx.defs x e he
  simp [hn] at he'

end State

/-- what the operation makes sure of when it replaces the definition of `t` -/
structure Revision (s : State) (op : Operation) (t : TypeId) (d d' : TypeDef) : Prop where
  label : d'.label = d.label
  kind : d'.kind = d.kind
  dataType : d'.dataType? = d.dataType? ∨ d.dataType? = none ∧ ¬ s.hasInstances t
  regex : d'.regex?.isSome → d.regex?.isSome ∨ ∃ source, op = .setRegex t source ∧ s.schema.dataType? t = some .string
  owns : ∀ c, c ∈ d'.owns ↔ c ∈ d.owns ∧ op ≠ .unhas t c

/-- **What becomes** of a schema in an operation; `old` are the identifiers in use -/
inductive Alteration (old : TypeId → Prop) (s : State) : Operation → Schema → Prop where
  | enriched {op : Operation} {schema' : Schema} (h : s.schema.Enriched old schema') : Alteration old s op schema'
  | revised {op : Operation} {t : TypeId} {d d' : TypeDef} (hd : s.schema.get? t = some d) (h : Revision s op t d d') :
      Alteration old s op (s.schema.redefine t d')
  | moved {t p : TypeId} {schema' : Schema} (h : s.schema.Moves schema' t p) :
      Alteration old s (.setSupertype t p) schema'
  | removed {t : TypeId} {schema' : Schema} (h : s.schema.Without schema' t)
      (hleaf : ∀ x, s.schema.directSupertype? x ≠ some t)
      (hcount : ∀ id b, s.graph.bare? id = some b → b.type ≠ t) : Alteration old s (.deleteType t) schema'

theorem Alteration.same (old : TypeId → Prop) (s : State) (op : Operation) : Alteration old s op s.schema :=
  .enriched (.refl old s.schema)

/-- the five types to start from are the same -/
theorem Alteration.metas {old : TypeId → Prop} {s : State} {op : Operation} {schema' : Schema}
    (h : Alteration old s op schema') : schema'.metaTypes = s.schema.metaTypes := by
  cases h with
  | enriched h => exact h.metas
  | revised => rfl
  | moved h => exact h.metas
  | removed h => exact h.metas

namespace Transaction

open State

variable {α : Type} {first : UInt64} {n : Nat} {t : Transaction} {a owned : TypeId} {d : TypeDef} {m : Mutation}
  {op : Operation} {old : TypeId → Prop}

/-! ## One definition -/

/-- a definition that differs in no data type, no regex and nothing that is owned -/
theorem revision_of_same {s : State} {d' : TypeDef} (hl : d'.label = d.label) (hk : d'.kind = d.kind)
    (hdt : d'.dataType? = d.dataType?) (hre : d'.regex? = d.regex?) (ho : ∀ c, c ∈ d'.owns ↔ c ∈ d.owns)
    (hop : ∀ c, op ≠ .unhas a c) : Revision s op a d d' :=
  ⟨hl, hk, Or.inl hdt, fun h => Or.inl (hre ▸ h), fun c => (ho c).trans (and_iff_left (hop c)).symm⟩

/-- a change of one definition, if it is done -/
theorem Ensures.revised {f : TypeDef → TypeDef}
    (h : ∀ d, t.working.schema.get? a = some d → Revision t.working op a d (f d)) :
    Ensures (do Transaction.editSchema fun schema => schema.change a f; Transaction.record m) t
      fun _ t' => Alteration old t.working op t'.working.schema := by
  refine .editSchema fun schema' hs' => .record_last ?_
  obtain ⟨d, hd, rfl⟩ := Schema.change_eq_ok.1 hs'
  exact .revised hd (h d hd)

theorem setAbstract_alters (a : TypeId) (isAbstract : Bool) : Ensures (setAbstract a isAbstract) t
    fun _ t' => Alteration old t.working (.setAbstract a isAbstract) t'.working.schema := by
  unfold setAbstract
  refine .ask fun _ _ => .ask fun _ _ => ?_
  split
  · exact .revised fun _ _ => revision_of_same rfl rfl rfl rfl (fun _ => Iff.rfl) fun _ => nofun
  · exact .pure (.same _ _ _)

/-- the data type is new, and no instance is there -/
theorem setDataType_alters (a : TypeId) (v : DataType) (hop : ∀ c, op ≠ .unhas a c) : Ensures (setDataType a v) t
    fun _ t' => Alteration old t.working op t'.working.schema := by
  unfold setDataType
  refine .ask fun _ hc => .ask fun d hd => ?_
  rw [Schema.require_eq_ok] at hd
  simp only [checkSetDataType, bind_eq_ok, editable_eq_ok] at hc
  obtain ⟨e, ⟨he, -⟩, hc⟩ := hc
  obtain rfl := Option.some.inj (hd.symm.trans he.1)
  split
  · rename_i hne
    split at hc
    · simp [throw_ne_ok] at hc
    rename_i hinst
    refine .revised fun e he' => ?_
    obtain rfl := Option.some.inj (hd.symm.trans he')
    have hs := d.setDataType_sameRefs (some v)
    refine ⟨hs.label, hs.kind, Or.inr ⟨?_, by simpa using hinst⟩,
      fun hre => Or.inl ((d.setDataType_other (some v)).2 ▸ hre),
      fun c => (hs.owns c).trans (and_iff_left (hop c)).symm⟩
    split at hc
    · rename_i current hcur
      simp only [if_else_throw_eq_ok] at hc
      exact absurd (hc.1 ▸ hcur) hne
    · assumption
  · exact .pure (.same _ _ _)

/-- the effective data type is string, whether declared by the type or above it -/
theorem setRegex_alters (a : TypeId) (source : String) : Ensures (setRegex a source) t
    fun _ t' => Alteration old t.working (.setRegex a source) t'.working.schema := by
  unfold setRegex
  refine .ask fun pattern hc => .revised fun d _ => ?_
  simp only [checkSetRegex, bind_eq_ok, if_throw_bind_eq_ok, ne_eq, not_not] at hc
  obtain ⟨-, -, hstring, -⟩ := hc
  have hs := d.setRegex_sameRefs (some pattern)
  have hop : ∀ c, Operation.setRegex a source ≠ .unhas a c := by simp
  exact ⟨hs.label, hs.kind, Or.inl (d.setRegex_other (some pattern)).2, fun _ => Or.inr ⟨source, rfl, hstring⟩,
    fun c => (hs.owns c).trans (and_iff_left (hop c)).symm⟩

theorem unsetRegex_alters (a : TypeId) : Ensures (unsetRegex a) t
    fun _ t' => Alteration old t.working (.unsetRegex a) t'.working.schema := by
  unfold unsetRegex
  refine .ask fun _ _ => .ask fun d hd => ?_
  rw [Schema.require_eq_ok] at hd
  split
  · rename_i hre
    refine .revised fun e he => ?_
    obtain rfl := Option.some.inj (hd.symm.trans he)
    have hs := d.setRegex_sameRefs none
    exact ⟨hs.label, hs.kind, Or.inl (d.setRegex_other none).2, fun _ => Or.inl hre,
      fun c => (hs.owns c).trans (and_iff_left nofun).symm⟩
  · exact .pure (.same _ _ _)

theorem plays_alters (a role : TypeId) : Ensures (plays a role) t
    fun _ t' => Alteration old t.working (.plays a role) t'.working.schema := by
  unfold plays
  refine .ask fun _ _ => .ask fun _ _ => ?_
  split
  · exact .revised fun _ _ => revision_of_same rfl rfl rfl rfl (fun _ => Iff.rfl) fun _ => nofun
  · exact .pure (.same _ _ _)

theorem unplay_alters (a role : TypeId) : Ensures (unplay a role) t
    fun _ t' => Alteration old t.working (.unplay a role) t'.working.schema := by
  unfold unplay
  refine .ask fun _ _ => .ask fun _ _ => ?_
  split
  · exact .revised fun _ _ => revision_of_same rfl rfl rfl rfl (fun _ => Iff.rfl) fun _ => nofun
  · exact .pure (.same _ _ _)

/-- other roles that relations relate -/
theorem changeRelates_revision {s : State} (f : ExtTreeSet TypeId → ExtTreeSet TypeId) (hop : ∀ c, op ≠ .unhas a c) :
    Revision s op a d (d.changeRelates f) := by
  obtain ⟨hl, hk, -, -, -, ho, hdt, hre⟩ := d.changeRelates_other f
  exact revision_of_same hl hk hdt hre (fun c => by rw [ho]) hop

theorem relates_alters (a role : TypeId) : Ensures (relates a role) t
    fun _ t' => Alteration old t.working (.relates a role) t'.working.schema := by
  unfold relates
  refine .ask fun _ _ => .ask fun _ _ => ?_
  split
  · exact .revised fun _ _ => changeRelates_revision _ fun _ => nofun
  · exact .pure (.same _ _ _)

theorem unrelate_alters (a role : TypeId) : Ensures (unrelate a role) t
    fun _ t' => Alteration old t.working (.unrelate a role) t'.working.schema := by
  unfold unrelate
  refine .ask fun _ _ => .ask fun _ _ => ?_
  split
  · exact .revised fun _ _ => changeRelates_revision _ fun _ => nofun
  · exact .pure (.same _ _ _)

theorem unkey_alters (a owned : TypeId) : Ensures (unkey a owned) t
    fun _ t' => Alteration old t.working (.unkey a owned) t'.working.schema := by
  unfold unkey
  refine .ask fun _ _ => .ask fun d hd => ?_
  rw [Schema.require_eq_ok] at hd
  split
  · rename_i hkey
    refine .revised fun e he => revision_of_same rfl rfl rfl rfl (fun c => ?_) fun _ => nofun
    obtain rfl := Option.some.inj (hd.symm.trans he)
    rw [ExtTreeMap.mem_insert, compare_iff]
    apply or_iff_right_of_imp
    rintro rfl
    exact ExtTreeMap.mem_iff_isSome_getElem?.2 (by rw [hkey]; rfl)
  · exact .pure (.same _ _ _)

/-- **Owning no longer.** The definition loses the one attribute type, if it owned it. -/
theorem unhas_revises (a owned : TypeId) : Ensures (unhas a owned) t fun _ t' => ∃ d d',
    t.working.schema.get? a = some d ∧ t'.working.schema = t.working.schema.redefine a d' ∧
      Revision t.working (.unhas a owned) a d d' := by
  unfold unhas
  refine .ask fun _ _ => .look (.ask fun d hd => ?_)
  rw [Schema.require_eq_ok] at hd
  split
  · refine .editSchema fun schema' hs' => .record_last ?_
    obtain ⟨e, he, rfl⟩ := Schema.change_eq_ok.1 hs'
    refine ⟨e, _, he, rfl, rfl, rfl, Or.inl rfl, Or.inl, fun c => ?_⟩
    simp only [ExtTreeMap.mem_erase, compare_iff, ne_eq, Operation.unhas.injEq, true_and]
    exact and_comm.trans (and_congr_right fun _ => not_congr eq_comm)
  · rename_i hnot
    refine .pure ⟨d, d, hd, (Schema.redefine_self hd).symm, rfl, rfl, Or.inl rfl, Or.inl, fun c => ?_⟩
    refine (and_iff_left_of_imp fun hc => ?_).symm
    rintro heq
    obtain ⟨-, rfl⟩ := Operation.unhas.inj heq
    exact hnot hc

/-! ## Several elements -/

theorem putType_alters (h : t.Sound first n) (hn : n < 2 ^ 64) (l : String) (body : TypeBody)
    (hre : (TypeDef.blank l body).regex? = none) : Ensures (putType l body) t
      fun _ t' => Alteration (fun x => Issued first n x.raw) t.working op t'.working.schema := by
  unfold putType
  refine .ask fun found _ => ?_
  cases found with
  | some x => exact .pure (.same _ _ _)
  | none =>
    refine .look (.get (.ask fun _ _ => .newType (.editSchema fun schema' hs' => .record ?_)))
    have hmore := h.working.insert_enriched hs' h.ids hn hre
    dsimp only
    split
    · exact .record (.pure (.enriched hmore))
    · exact .pure (.enriched hmore)

theorem putAttributeType_alters (h : t.Sound first n) (hn : n < 2 ^ 64) (l : String) (dataType : Option DataType) :
    Ensures (putAttributeType l dataType) t fun _ t' =>
      Alteration (fun x => Issued first n x.raw) t.working (.putAttributeType l dataType) t'.working.schema := by
  unfold putAttributeType
  refine .ask fun found _ => ?_
  cases found with
  | none => exact putType_alters h hn l _ rfl
  | some x =>
    cases dataType with
    | none => exact .pure (.same _ _ _)
    | some v =>
      refine .look ?_
      dsimp only
      split
      · exact .bind ((setDataType_alters x v fun _ h => by cases h).weaken fun _ _ hd => .pure hd)
      · exact .pure (.same _ _ _)

theorem setLabel_alters (h : t.Sound first n) (a : TypeId) (l : String) : Ensures (setLabel a l) t
    fun _ t' => Alteration old t.working (.setLabel a l) t'.working.schema := by
  unfold setLabel
  refine .get (.ask fun _ hc => .ask fun d hd => ?_)
  rw [Schema.require_eq_ok] at hd
  simp only [checkSetLabel, bind_eq_ok, editableAny_eq_ok] at hc
  obtain ⟨d', he, _, hl, -⟩ := hc
  obtain rfl := Option.some.inj (hd.symm.trans he.1)
  obtain ⟨hl, hun⟩ := checkLabel_ok hl
  split
  · refine .editSchema fun schema' hs' => .record_last (.enriched ?_)
    obtain ⟨hsame, -, -⟩ :=
      Schema.relabelAll_spec h.working.coherent h.working.recorded hd he.2.1 he.2.2 hl hun hs'
    exact enriched_of_sameButLabels hsame
  · exact .pure (.same _ _ _)

/-- **Another supertype.** The element stands under it, wherever it stood before. -/
theorem setSupertype_moves (h : t.Sound first n) (a p : TypeId) : Ensures (setSupertype a p) t
    fun _ t' => t.working.schema.Moves t'.working.schema a p := by
  unfold setSupertype
  refine .ask fun _ _ => .look ?_
  split
  · refine .editSchema fun schema' hs' => .record_last ?_
    obtain ⟨⟨old, moved⟩, hm, hmoved⟩ := bind_eq_ok.1 hs'
    obtain rfl := pure_eq_ok.1 hmoved
    exact Schema.reparent_moves h.working.coherent.indexed hm
  · rename_i hsame
    exact .pure (.refl (not_not.1 hsame))

/-- **A deletion** leaves the schema without the element, which had no subtypes and no instances. -/
theorem deleteType_without (h : t.Sound first n) (a : TypeId) : Ensures (deleteType a) t
    fun _ t' => t.working.schema.Without t'.working.schema a ∧ (∀ x, t.working.schema.directSupertype? x ≠ some a) ∧
      ∀ id b, t.working.graph.bare? id = some b → b.type ≠ a := by
  unfold deleteType
  refine .ask fun _ hc => .editSchema fun schema' hs' => .record_last ?_
  obtain ⟨d, he, hsub, hcount, -⟩ := checkDeleteType_eq_ok.1 hc
  have hleaf := h.working.coherent.indexed.directSubtypes_eq_nil.1 hsub
  obtain ⟨schema'', hs'', hw, -⟩ :=
    Schema.removeAll_spec h.working.coherent h.working.recorded he.1 he.2.1 he.2.2 hleaf
  obtain rfl := Except.ok.inj (hs'.symm.trans hs'')
  exact ⟨hw, hleaf, fun id b hb hba => hcount ((Graph.countOfType_pos h.working.indexed).2 ⟨id, b, hb, hba⟩)⟩

theorem deleteType_alters (h : t.Sound first n) (a : TypeId) : Ensures (deleteType a) t
    fun _ t' => Alteration old t.working (.deleteType a) t'.working.schema :=
  (deleteType_without h a).weaken fun _ _ ⟨hw, hleaf, hcount⟩ => .removed hw hleaf hcount

/-! ## Ownership -/

/-- **A declaration of ownership** is one more in a definition, once there is a record, which is made for the first one. -/
theorem declareOwnership_redefines {e : TypeDef} (h : t.Sound first n) (ho : t.working.Editable owned e)
    (ownership : Ownership) : Ensures (do declareOwnership a owned ownership; record m) t
    fun _ t' => n + drawn t t' < 2 ^ 64 → ∃ schema₁ r d,
      (schema₁ = t.working.schema ∨ (t.working.schema.FreshFor r ∧ (∀ x, r.Made x → ¬ Issued first n x.raw) ∧
        t.working.schema.get? r.owned = some e ∧ t.working.schema.WithRecord schema₁ r e)) ∧
      schema₁.get? a = some d ∧ t'.working.schema = schema₁.redefine a
        { d with plays := d.plays.insert r.ownerRole, owns := d.owns.insert owned ownership } := by
  simp only [declareOwnership, ensureImplicit, bind_assoc]
  refine .look ?_
  cases hrec : t.working.schema.implicitForOwned? owned with
  | some r =>
    simp only [pure_bind]
    refine .editSchema fun schema' hs' => .record_last fun _ => ?_
    obtain ⟨d', hd', rfl⟩ := Schema.change_eq_ok.1 hs'
    exact ⟨_, r, d', Or.inl rfl, hd', rfl⟩
  | none =>
    simp only [bind_assoc, pure_bind]
    refine .ask fun d' hd' => .newType (.newType (.newType
      (.editSchema fun schema₁ h₁ => .editSchema fun schema₂ h₂ => .record_last fun hfit => ?_)))
    obtain rfl := Option.some.inj (ho.1.symm.trans (Schema.require_eq_ok.1 hd'))
    have hnext : t.ids.next + 1 = first + UInt64.ofNat (n + 1) := by rw [h.ids, next_offset]
    have hnext' : t.ids.next + 1 + 1 = first + UInt64.ofNat (n + 2) := by rw [hnext, next_offset]
    have hids : t.ids.next + 1 + 1 + 1 = t.ids.next + UInt64.ofNat 3 := by
      rw [hnext', next_offset, h.ids, UInt64.add_assoc, ← UInt64.ofNat_add]
    -- three identifiers have been drawn, so that there were three
    have hthree : n + 3 < 2 ^ 64 := by
      rwa [drawn_eq (k := 3) hids (by decide)] at hfit
    obtain ⟨hfresh, hmade⟩ := h.working.freshFor hthree
      (r := ⟨owned, ⟨t.ids.next⟩, ⟨t.ids.next + 1⟩, ⟨t.ids.next + 1 + 1⟩⟩) h.ids hnext hnext'
    obtain ⟨hw, -⟩ := Schema.insertImplicit_withRecord h.working.coherent hfresh ho.1 h₁ ho.2.1
    obtain ⟨d', hd', rfl⟩ := Schema.change_eq_ok.1 h₂
    exact ⟨schema₁, _, d', Or.inr ⟨hfresh, fun x hx => (hmade x hx).1, ho.1, hw⟩, hd', rfl⟩

/-- so it enriches the schema -/
theorem declareOwnership_enriches {e : TypeDef} (h : t.Sound first n) (ho : t.working.Editable owned e)
    (ownership : Ownership) : Ensures (do declareOwnership a owned ownership; record m) t
    fun _ t' => n + drawn t t' < 2 ^ 64 →
      t.working.schema.Enriched (fun x => Issued first n x.raw) t'.working.schema := by
  refine (declareOwnership_redefines h ho ownership).weaken fun _ t' hmade hfit => ?_
  obtain ⟨schema₁, r, d, hrec, hd, hschema⟩ := hmade hfit
  rw [hschema]
  refine .trans ?_ (Schema.redefine_enriched hd (.owning d _ _ _))
  rcases hrec with rfl | ⟨-, hmade, howned, hw⟩
  · exact .refl _ _
  · exact h.working.record_enriched hw howned hmade

theorem has_alters (h : t.Sound first n) (a owned : TypeId) : Ensures (has a owned) t
    fun _ t' => n + drawn t t' < 2 ^ 64 →
      Alteration (fun x => Issued first n x.raw) t.working (.has a owned) t'.working.schema := by
  unfold has
  refine .ask fun _ hc => .ask fun d _ => ?_
  simp only [checkHas, bind_eq_ok, editableThingType_eq_ok, editable_eq_ok] at hc
  obtain ⟨-, -, e, ⟨ho, -⟩, -⟩ := hc
  split
  · exact (declareOwnership_enriches h ho .has).weaken fun _ _ hx hfit => .enriched (hx hfit)
  · exact .pure fun _ => .same _ _ _

theorem key_alters (h : t.Sound first n) (a owned : TypeId) : Ensures (key a owned) t
    fun _ t' => n + drawn t t' < 2 ^ 64 →
      Alteration (fun x => Issued first n x.raw) t.working (.key a owned) t'.working.schema := by
  unfold key
  refine .ask fun _ hc => .ask fun d _ => ?_
  simp only [checkKey, bind_eq_ok, editableThingType_eq_ok, editable_eq_ok] at hc
  obtain ⟨-, -, e, ⟨ho, -⟩, -⟩ := hc
  split
  · exact (declareOwnership_enriches h ho .key).weaken fun _ _ hx hfit => .enriched (hx hfit)
  · exact .pure fun _ => .same _ _ _

/-! ## All operations -/

/-- an alteration for certain is one if identifiers last -/
theorem Ensures.altered {e : Edit α} {f : α → Reply}
    (h : Ensures e t fun _ t' => Alteration old t.working op t'.working.schema) :
    Ensures (f <$> e) t fun _ t' => n + drawn t t' < 2 ^ 64 → Alteration old t.working op t'.working.schema :=
  .map (h.weaken fun _ _ ha _ => ha)

/-- **Any schema operation** that is done enriches the schema, revises one definition, moves one element or removes
one. -/
theorem alters (h : t.Sound first n) (hn : n < 2 ^ 64) (hop : op.editsSchema) : Ensures op.perform t
    fun _ t' => n + drawn t t' < 2 ^ 64 →
      Alteration (fun x => Issued first n x.raw) t.working op t'.working.schema := by
  cases op with
  | putEntityType l => exact .altered (putType_alters h hn l .entity rfl)
  | putRelationType l => exact .altered (putType_alters h hn l (.relation ∅ none) rfl)
  | putRole l => exact .altered (putType_alters h hn l .role rfl)
  | putAttributeType l dataType => exact .altered (putAttributeType_alters h hn l dataType)
  | setSupertype a p => exact .altered ((setSupertype_moves h a p).weaken fun _ _ hm => .moved hm)
  | setLabel a l => exact .altered (setLabel_alters h a l)
  | setAbstract a isAbstract => exact .altered (setAbstract_alters a isAbstract)
  | deleteType a => exact .altered (deleteType_alters h a)
  | setDataType a v => exact .altered (setDataType_alters a v fun _ => nofun)
  | setRegex a source => exact .altered (setRegex_alters a source)
  | unsetRegex a => exact .altered (unsetRegex_alters a)
  | plays a role => exact .altered (plays_alters a role)
  | unplay a role => exact .altered (unplay_alters a role)
  | relates a role => exact .altered (relates_alters a role)
  | unrelate a role => exact .altered (unrelate_alters a role)
  | has a owned => exact .map (has_alters h a owned)
  | unhas a owned =>
    refine .altered ((unhas_revises a owned).weaken fun _ t' hr => ?_)
    obtain ⟨d, d', hd, hs', hr⟩ := hr
    exact hs' ▸ .revised hd hr
  | key a owned => exact .map (key_alters h a owned)
  | unkey a owned => exact .altered (unkey_alters a owned)
  | _ => cases hop

theorem Ensures.of_ok {r : Reply} {post : Reply → Transaction → Prop} (h : Ensures op.perform t post)
    (hok : (t.perform op).1 = .ok r) : post r (t.perform op).2 := by
  refine h r _ ?_
  rw [← perform_eq, ← hok]

/-- a schema operation that has answered is a step, and alters the schema -/
theorem perform_alters {r : Reply} (h : t.Sound first n) (hfit : n + drawn t (t.perform op).2 < 2 ^ 64)
    (hop : op.editsSchema) (hok : (t.perform op).1 = .ok r) :
    ∃ k, SchemaStep first n k (op.Loses t.working) t.working (t.perform op).2.working ∧
      Alteration (fun x => Issued first n x.raw) t.working op (t.perform op).2.working.schema := by
  obtain ⟨k, -, -, -, hstep⟩ := (performed_of_ok h hfit hok).schemaDone hop
  exact ⟨k, hstep, (alters h (by omega) hop).of_ok hok hfit⟩

/-- an element that has been moved stands under the other supertype -/
theorem perform_moves {r : Reply} {x p : TypeId} (h : t.Sound first n)
    (hok : (t.perform (.setSupertype x p)).1 = .ok r) :
    t.working.schema.Moves (t.perform (.setSupertype x p)).2.working.schema x p :=
  have h' : Ensures (Operation.setSupertype x p).perform t fun _ t' =>
    t.working.schema.Moves t'.working.schema x p := .map (setSupertype_moves h x p)
  h'.of_ok hok

/-- an element that has been deleted is gone, with what goes along -/
theorem perform_without {r : Reply} {x : TypeId} (h : t.Sound first n) (hok : (t.perform (.deleteType x)).1 = .ok r) :
    t.working.schema.Without (t.perform (.deleteType x)).2.working.schema x :=
  have h' : Ensures (Operation.deleteType x).perform t fun _ t' =>
    t.working.schema.Without t'.working.schema x := .map ((deleteType_without h x).weaken fun _ _ hd => hd.1)
  h'.of_ok hok

/-- a definition that has been asked to own no longer -/
theorem perform_unhas {r : Reply} {x c : TypeId} (hok : (t.perform (.unhas x c)).1 = .ok r) : ∃ d d',
    t.working.schema.get? x = some d ∧
      (t.perform (.unhas x c)).2.working.schema = t.working.schema.redefine x d' ∧
        Revision t.working (.unhas x c) x d d' := by
  have h' : Ensures (Operation.unhas x c).perform t fun _ t' => ∃ d d', t.working.schema.get? x = some d ∧
    t'.working.schema = t.working.schema.redefine x d' ∧ Revision t.working (.unhas x c) x d d' :=
    .map (unhas_revises x c)
  exact h'.of_ok hok

end Transaction

end ConceptGraph
