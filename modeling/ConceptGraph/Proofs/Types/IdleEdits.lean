/-
Schema edits that are made again. The rule is asked once more, of the schema that the edit itself has changed; it has to
accept there, and the edit has to find that things are as wanted.

- `Idle`: an edit answers, and leaves all as it is. `Ensures.idle`: one that has changed nothing does so again.
- `StaysEditable`: users may still edit what they could edit before. So rules that ask no more than that accept again
  after a change of one definition, and after a record has been made for an ownership.
- `adjust`: the edits of one definition. `adjust_idle`: they are idle the next time, if the rule accepts the changed
  definition and there is no reason left to change it.
- `putType_idle` to `key_idle`: the edits one by one. `setRegex_again`: a regex is recorded again, but that is all.
-/
import ConceptGraph.Proofs.Keys.KeyDeclarations
import ConceptGraph.Proofs.Types.Reparenting
import ConceptGraph.Proofs.Types.Withdrawals

namespace ConceptGraph

open Std

namespace Transaction

variable {α β : Type} {t t' : Transaction} {a : α} {b : β}

/-- the edit answers, and leaves all as it is -/
def Idle (e : Edit α) (a : α) (t : Transaction) : Prop := outcome e t = (.ok a, t)

namespace Idle

variable {e : Edit α} {k : β → Edit α}

theorem pure (a : α) : Idle (Pure.pure a) a t := rfl

theorem bind {e : Edit β} (he : Idle e b t) (hk : Idle (k b) a t) : Idle (e >>= k) a t := by
  rw [Idle, outcome_bind, he]
  exact hk

theorem ask {f : State → Except ConceptError β} (hf : f t.working = .ok b) (hk : Idle (k b) a t) :
    Idle (ask f >>= k) a t := (outcome_allowed hf).trans hk

theorem look {f : State → β} (hk : Idle (k (f t.working)) a t) : Idle (look f >>= k) a t := hk

/-- there is no reason for the edit -/
theorem needless {c : Prop} [Decidable c] {e e' : Edit α} (hc : ¬ c) (h : Idle e' a t) :
    Idle (if c then e else e') a t := by
  rwa [if_neg hc]

end Idle

/-- what has changed nothing changes nothing the next time -/
theorem Ensures.idle {e : Edit α} (h : Ensures e t fun a t' => t' = t ∨ Idle e a t') :
    Ensures e t fun a t' => Idle e a t' := by
  intro a t' hout
  rcases h a t' hout with rfl | h
  · exact hout
  · exact h

end Transaction

theorem TypeDef.setRegex_setRegex (d : TypeDef) (p : Option Pattern) : (d.setRegex p).setRegex p = d.setRegex p := by
  obtain ⟨l, ab, pl, ow, body⟩ := d
  cases body <;> rfl

/-! ## What can still be edited -/

namespace State

variable {s s' : State} {a x role owned : TypeId} {d d' e : TypeDef} {kind : Kind}

/-- users may still edit what they could edit before, and it is of the same kind -/
def StaysEditable (s s' : State) : Prop := ∀ x e, s.Editable x e → ∃ e', s'.Editable x e' ∧ e'.kind = e.kind

/-- an element with another definition under the same label -/
theorem Editable.redefined (he : s.Editable a d) (hl : d'.label = d.label) :
    ({ s with schema := s.schema.redefine a d' } : State).Editable a d' :=
  ⟨(Schema.get?_redefine ..).trans (if_pos rfl), he.2.1, by rw [TypeDef.isImplicit, hl]; exact he.2.2⟩

theorem staysEditable_redefine (hd : s.schema.get? a = some d) (hl : d'.label = d.label) (hk : d'.kind = d.kind) :
    s.StaysEditable { s with schema := s.schema.redefine a d' } := by
  intro x e hx
  by_cases hxa : x = a
  · subst hxa
    obtain rfl := Option.some.inj (hd.symm.trans hx.1)
    exact ⟨d', hx.redefined hl, hk⟩
  · exact ⟨e, ⟨(Schema.get?_redefine ..).trans ((if_neg hxa).trans hx.1), hx.2⟩, rfl⟩

/-- a record is about elements that were not there before, but for the attribute type, which keeps its label -/
theorem staysEditable_withRecord {schema' : Schema} {r : ImplicitOwnership} (hf : s.schema.FreshFor r)
    (hd : s.schema.get? r.owned = some d) (hw : s.schema.WithRecord schema' r d) :
    s.StaysEditable { s with schema := schema' } := by
  rintro x e ⟨hx, hm, hi⟩
  have hm' : ¬ schema'.isMeta x := fun h => hm ((Schema.isMeta_congr hw.metas).1 h)
  by_cases hxo : x = r.owned
  · subst hxo
    obtain rfl := Option.some.inj (hd.symm.trans hx)
    exact ⟨_, ⟨hw.owned, hm', hi⟩, rfl⟩
  · exact ⟨e, ⟨(hw.other x hxo (hf.not_defined hx)).trans hx, hm', hi⟩, rfl⟩

/-- the rule for regexes asks for strings, all of which match -/
theorem checkSetRegex_eq_ok {source : String} {p : Pattern} : s.checkSetRegex a source = .ok p ↔ ∃ d, s.Editable a d ∧
    d.kind = .attribute ∧ s.schema.dataType? a = some .string ∧ Pattern.compile source = .ok p ∧
      ∀ i ∈ s.instances a, ∀ text, i.2.value?.bind Value.string? = some text → p.isMatch text := by
  simp only [checkSetRegex, bind_eq_ok, editable_eq_ok, if_throw_bind_eq_ok, checkEach_eq_ok, pure_eq_ok, ne_eq,
    not_not, Option.bind_eq_bind, Option.bind_eq_none_iff]
  constructor
  · rintro ⟨d, ⟨he, hk⟩, hstring, p, hcompile, _, hall, rfl⟩
    exact ⟨d, he, hk, hstring, hcompile, fun i hi text htext => by simpa using hall i hi text htext⟩
  · rintro ⟨d, he, hk, hstring, hcompile, hall⟩
    exact ⟨d, ⟨he, hk⟩, hstring, p, hcompile, (), fun i hi text htext => if_pos (hall i hi text htext), rfl⟩

namespace StaysEditable

theorem trans {s'' : State} (h : s.StaysEditable s') (h' : s'.StaysEditable s'') : s.StaysEditable s'' := by
  intro x e hx
  obtain ⟨e', hx', hk⟩ := h x e hx
  obtain ⟨e'', hx'', hk'⟩ := h' x e' hx'
  exact ⟨e'', hx'', hk'.trans hk⟩

variable (h : s.StaysEditable s')

include h

theorem editable (hx : s.editable x kind = .ok e) : ∃ e', s'.editable x kind = .ok e' := by
  obtain ⟨he, hk⟩ := editable_eq_ok.1 hx
  obtain ⟨e', he', hk'⟩ := h x e he
  exact ⟨e', editable_eq_ok.2 ⟨he', hk'.trans hk⟩⟩

theorem editableThingType (hx : s.editableThingType x = .ok e) : ∃ e', s'.editableThingType x = .ok e' := by
  obtain ⟨he, hk⟩ := editableThingType_eq_ok.1 hx
  obtain ⟨e', he', hk'⟩ := h x e he
  exact ⟨e', editableThingType_eq_ok.2 ⟨he', hk' ▸ hk⟩⟩

theorem checkPlays (hc : s.checkPlays a role = .ok ()) : s'.checkPlays a role = .ok () := by
  simp only [State.checkPlays, bind_eq_ok] at hc ⊢
  obtain ⟨_, ha, _, hrole, -⟩ := hc
  obtain ⟨d', ha'⟩ := h.editableThingType ha
  obtain ⟨e', hrole'⟩ := h.editable hrole
  exact ⟨d', ha', e', hrole', rfl⟩

theorem checkRelates (hc : s.checkRelates a role = .ok ()) : s'.checkRelates a role = .ok () := by
  simp only [State.checkRelates, bind_eq_ok] at hc ⊢
  obtain ⟨_, ha, _, hrole, -⟩ := hc
  obtain ⟨d', ha'⟩ := h.editable ha
  obtain ⟨e', hrole'⟩ := h.editable hrole
  exact ⟨d', ha', e', hrole', rfl⟩

theorem checkHas (hc : s.checkHas a owned = .ok ()) : s'.checkHas a owned = .ok () := by
  simp only [State.checkHas, bind_eq_ok] at hc ⊢
  obtain ⟨_, ha, _, howned, -⟩ := hc
  obtain ⟨d', ha'⟩ := h.editableThingType ha
  obtain ⟨e', howned'⟩ := h.editable howned
  exact ⟨d', ha', e', howned', rfl⟩

end StaysEditable

/-! ## What is withdrawn already -/

section Redefined

variable (hd : s.schema.get? a = some d) (hl : d'.label = d.label) (hk : d'.kind = d.kind)

include hd hl hk

theorem editableThingType_redefine (hc : s.editableThingType a = .ok e) :
    ({ s with schema := s.schema.redefine a d' } : State).editableThingType a = .ok d' := by
  obtain ⟨he, hkind⟩ := editableThingType_eq_ok.1 hc
  obtain rfl := Option.some.inj (hd.symm.trans he.1)
  exact editableThingType_eq_ok.2 ⟨he.redefined hl, hk ▸ hkind⟩

theorem editable_redefine (hc : s.editable a kind = .ok e) :
    ({ s with schema := s.schema.redefine a d' } : State).editable a kind = .ok d' := by
  obtain ⟨he, hkind⟩ := editable_eq_ok.1 hc
  obtain rfl := Option.some.inj (hd.symm.trans he.1)
  exact editable_eq_ok.2 ⟨he.redefined hl, hk.trans hkind⟩

theorem checkUnplay_redefine (hgone : ¬ d'.plays.contains role) (hc : s.checkUnplay a role = .ok ()) :
    ({ s with schema := s.schema.redefine a d' } : State).checkUnplay a role = .ok () := by
  simp only [checkUnplay, bind_eq_ok] at hc ⊢
  obtain ⟨_, ha, _, hrole, -⟩ := hc
  obtain ⟨e', hrole'⟩ := (staysEditable_redefine hd hl hk).editable hrole
  exact ⟨d', editableThingType_redefine hd hl hk ha, e', hrole', if_neg hgone⟩

theorem checkUnrelate_redefine (hgone : ¬ d'.relatesRole role) (hc : s.checkUnrelate a role = .ok ()) :
    ({ s with schema := s.schema.redefine a d' } : State).checkUnrelate a role = .ok () := by
  simp only [checkUnrelate, bind_eq_ok] at hc ⊢
  obtain ⟨_, ha, _, hrole, -⟩ := hc
  obtain ⟨e', hrole'⟩ := (staysEditable_redefine hd hl hk).editable hrole
  exact ⟨d', editable_redefine hd hl hk ha, e', hrole', if_neg hgone⟩

theorem checkUnhas_redefine (hgone : ¬ d'.owns.contains owned) (hc : s.checkUnhas a owned = .ok ()) :
    ({ s with schema := s.schema.redefine a d' } : State).checkUnhas a owned = .ok () := by
  simp only [checkUnhas, bind_eq_ok] at hc ⊢
  obtain ⟨_, ha, _, howned, -⟩ := hc
  obtain ⟨e', howned'⟩ := (staysEditable_redefine hd hl hk).editable howned
  exact ⟨d', editableThingType_redefine hd hl hk ha, e', howned', if_neg hgone⟩

end Redefined

end State

namespace Transaction

open State

variable {α : Type} {first : UInt64} {n : Nat} {t t' : Transaction} {a x role owned : TypeId} {d : TypeDef}
  {m : Mutation}

/-! ## One definition -/

/-- the edits of one definition, which is changed if the rule allows it and there is reason to -/
def adjust (a : TypeId) (rule : State → Except ConceptError Unit) (due : TypeDef → Prop) [DecidablePred due]
    (f : TypeDef → TypeDef) (m : Mutation) : Edit Unit := do
  ask rule
  let d ← ask fun s => s.schema.require a
  if due d then
    editSchema fun schema => schema.change a f
    record m

/-- an edit of one definition leaves it alone, or changes it -/
theorem adjust_cases (a : TypeId) (rule : State → Except ConceptError Unit) (due : TypeDef → Prop) [DecidablePred due]
    (f : TypeDef → TypeDef) (m : Mutation) : Ensures (adjust a rule due f m) t fun _ t' => t' = t ∨
      ∃ d, rule t.working = .ok () ∧ t.working.schema.get? a = some d ∧ due d ∧ t' = t.redefine a (f d) m := by
  refine .ask fun _ hc => .ask fun d hd => ?_
  rw [Schema.require_eq_ok] at hd
  split
  · rename_i hdue
    refine .editSchema fun schema' hs' => .record_last (Or.inr ⟨d, hc, hd, hdue, ?_⟩)
    obtain ⟨e, he, rfl⟩ := Schema.change_eq_ok.1 hs'
    obtain rfl := Option.some.inj (hd.symm.trans he)
    rfl
  · exact .pure (Or.inl rfl)

/-- **An edit of one definition** is idle the next time, if there is no reason left for it and the rule accepts. -/
theorem adjust_idle (a : TypeId) (rule : State → Except ConceptError Unit) (due : TypeDef → Prop) [DecidablePred due]
    (f : TypeDef → TypeDef) (m : Mutation)
    (h : ∀ d, t.working.schema.get? a = some d → rule t.working = .ok () → due d →
      ¬ due (f d) ∧ rule { t.working with schema := t.working.schema.redefine a (f d) } = .ok ()) :
    Ensures (adjust a rule due f m) t fun u t' => Idle (adjust a rule due f m) u t' := by
  refine Ensures.idle ((adjust_cases a rule due f m).weaken fun u t' hcase => hcase.imp_right ?_)
  rintro ⟨d, hc, hd, hdue, rfl⟩
  obtain ⟨hnot, hc'⟩ := h d hd hc hdue
  have hd' : (t.redefine a (f d) m).working.schema.get? a = some (f d) :=
    (Schema.get?_redefine ..).trans (if_pos rfl)
  exact .ask hc' (.ask (Schema.require_eq_ok.2 hd') (.needless hnot (.pure ())))

theorem setAbstract_idle (a : TypeId) (isAbstract : Bool) :
    Ensures (setAbstract a isAbstract) t fun u t' => Idle (setAbstract a isAbstract) u t' := by
  refine adjust_idle a (·.checkSetAbstract a isAbstract) (fun d => d.isAbstract ≠ isAbstract)
    (fun d => { d with isAbstract := isAbstract }) (.setAbstract a isAbstract) fun d hd hc _ => ⟨not_not.2 rfl, ?_⟩
  simp only [checkSetAbstract, bind_eq_ok] at hc ⊢
  obtain ⟨e, ha, -⟩ := hc
  refine ⟨_, editableThingType_redefine hd rfl rfl ha, ?_⟩
  cases isAbstract <;> rfl

/-- the data type is the one that is asked for, so that the rule looks no further -/
theorem setDataType_idle (a : TypeId) (v : DataType) :
    Ensures (setDataType a v) t fun u t' => Idle (setDataType a v) u t' := by
  refine adjust_idle a (·.checkSetDataType a v) (fun d => d.dataType? ≠ some v) (·.setDataType (some v))
    (.setDataType a v) fun d hd hc _ => ?_
  simp only [checkSetDataType, bind_eq_ok] at hc ⊢
  obtain ⟨e, ha, hc⟩ := hc
  obtain ⟨he, hk⟩ := editable_eq_ok.1 ha
  obtain rfl := Option.some.inj (hd.symm.trans he.1)
  have hs := d.setDataType_sameRefs (some v)
  have hv := TypeDef.dataType?_setDataType hk (some v)
  refine ⟨not_not.2 hv, _, editable_redefine hd hs.label hs.kind ha, ?_⟩
  split at hc
  · simp [throw_ne_ok] at hc
  · rename_i hinst
    have hinst' : ¬ ({ t.working with schema := t.working.schema.redefine a (d.setDataType (some v)) } :
      State).hasInstances a := hinst
    rw [if_neg hinst', hv]
    exact if_pos rfl

theorem unsetRegex_idle (a : TypeId) : Ensures (unsetRegex a) t fun u t' => Idle (unsetRegex a) u t' := by
  refine adjust_idle a (·.checkUnsetRegex a) (fun d => d.regex?.isSome) (·.setRegex none) (.unsetRegex a)
    fun d hd hc _ => ?_
  simp only [checkUnsetRegex, bind_eq_ok] at hc ⊢
  obtain ⟨e, ha, -⟩ := hc
  obtain ⟨he, hk⟩ := editable_eq_ok.1 ha
  obtain rfl := Option.some.inj (hd.symm.trans he.1)
  have hs := d.setRegex_sameRefs none
  exact ⟨by simp [TypeDef.regex?_setRegex hk], _, editable_redefine hd hs.label hs.kind ha, rfl⟩

theorem plays_idle (a role : TypeId) : Ensures (plays a role) t fun u t' => Idle (plays a role) u t' :=
  adjust_idle a (·.checkPlays a role) (fun d => !d.plays.contains role)
    (fun d => { d with plays := d.plays.insert role }) (.plays a role) fun d hd hc _ =>
      ⟨by simp, StaysEditable.checkPlays (staysEditable_redefine hd rfl rfl) hc⟩

theorem relates_idle (a role : TypeId) : Ensures (relates a role) t fun u t' => Idle (relates a role) u t' := by
  refine adjust_idle a (·.checkRelates a role) (fun d => !d.relatesRole role) (·.changeRelates (·.insert role))
    (.relates a role) fun d hd hc _ => ?_
  obtain ⟨hl, hk, -⟩ := d.changeRelates_other (·.insert role)
  refine ⟨?_, (staysEditable_redefine hd hl hk).checkRelates hc⟩
  simp only [checkRelates, bind_eq_ok, editable_eq_ok] at hc
  obtain ⟨e, ⟨he, hrel⟩, -⟩ := hc
  obtain rfl := Option.some.inj (hd.symm.trans he.1)
  simp [(TypeDef.relatesRole_insert hrel role role).2 (Or.inl rfl)]

theorem unkey_idle (a owned : TypeId) : Ensures (unkey a owned) t fun u t' => Idle (unkey a owned) u t' :=
  adjust_idle a (·.checkHas a owned) (fun d => d.owns[owned]? = some .key)
    (fun d => { d with owns := d.owns.insert owned .has }) (.unkey a owned) fun d hd hc _ =>
      ⟨by simp, StaysEditable.checkHas (staysEditable_redefine hd rfl rfl) hc⟩

theorem unplay_idle (a role : TypeId) : Ensures (unplay a role) t fun u t' => Idle (unplay a role) u t' := by
  refine adjust_idle a (·.checkUnplay a role) (fun d => d.plays.contains role)
    (fun d => { d with plays := d.plays.erase role }) (.unplay a role) fun d hd hc _ => ?_
  have hgone : ¬ (d.plays.erase role).contains role := by simp
  exact ⟨hgone, checkUnplay_redefine hd rfl rfl hgone hc⟩

theorem unrelate_idle (a role : TypeId) : Ensures (unrelate a role) t fun u t' => Idle (unrelate a role) u t' := by
  refine adjust_idle a (·.checkUnrelate a role) (fun d => d.relatesRole role) (·.changeRelates (·.erase role))
    (.unrelate a role) fun d hd hc _ => ?_
  obtain ⟨hl, hk, -⟩ := d.changeRelates_other (·.erase role)
  have hgone : ¬ (d.changeRelates (·.erase role)).relatesRole role :=
    fun hx => ((d.relatesRole_erase role role).1 hx).2 rfl
  exact ⟨hgone, checkUnrelate_redefine hd hl hk hgone hc⟩

/-- here the change depends on the record of the ownership, so that it is no `adjust` -/
theorem unhas_idle (a owned : TypeId) : Ensures (unhas a owned) t fun u t' => Idle (unhas a owned) u t' := by
  refine Ensures.idle (.ask fun _ hc => .look (.ask fun d hd => ?_))
  rw [Schema.require_eq_ok] at hd
  split
  · refine .editSchema fun schema' hs' => .record_last (Or.inr ?_)
    obtain ⟨e, he, rfl⟩ := Schema.change_eq_ok.1 hs'
    obtain rfl := Option.some.inj (hd.symm.trans he)
    have hgone : ¬ (d.owns.erase owned).contains owned := by simp
    have hd' := fun d' => (Schema.get?_redefine t.working.schema a d' a).trans (if_pos rfl)
    exact .ask (checkUnhas_redefine hd rfl rfl hgone hc)
      (.look (.ask (Schema.require_eq_ok.2 (hd' _)) (.needless hgone (.pure ()))))
  · exact .pure (Or.inl rfl)

/-- to set the regex that is there already changes nothing, but is recorded -/
theorem setRegex_same {source : String} {p : Pattern} (hc : t.working.checkSetRegex a source = .ok p)
    (hd : t.working.schema.get? a = some d) (hp : d.setRegex (some p) = d) :
    outcome (setRegex a source) t = (.ok (), { t with mutations := t.mutations ++ [.setRegex a source] }) := by
  refine (outcome_allowed hc).trans ((outcome_change hd).trans ?_)
  rw [redefine, hp, Schema.redefine_self hd]
  rfl

/-- **A regex** that has been set is set once more, which is recorded. -/
theorem setRegex_again (h : t.Sound first n) (a : TypeId) (source : String) : Ensures (setRegex a source) t fun u t' =>
    outcome (setRegex a source) t' = (.ok u, { t' with mutations := t'.mutations ++ [.setRegex a source] }) := by
  refine .ask fun p hc => .editSchema fun schema' hs' => .record_last ?_
  obtain ⟨d, hd, rfl⟩ := Schema.change_eq_ok.1 hs'
  obtain ⟨e, he, hk, hstring, hcompile, hall⟩ := checkSetRegex_eq_ok.1 hc
  obtain rfl := Option.some.inj (hd.symm.trans he.1)
  have hs := d.setRegex_sameRefs (some p)
  have hdt : (t.working.schema.redefine a (d.setRegex (some p))).dataType? a = some .string := by
    refine (Schema.dataType?_congr (supertypes_redefine h.working.coherent.indexed hd hs.label hs.kind a)
      fun x _ => ?_).trans hstring
    rw [declaredDataType?_redefine]
    split
    · rename_i hx
      rw [hx, Schema.declaredDataType?, hd, Option.bind_some, (d.setRegex_other _).2]
    · rfl
  have hc' := checkSetRegex_eq_ok.2 ⟨_, he.redefined hs.label, hs.kind.trans hk, hdt, hcompile, hall⟩
  exact setRegex_same hc' ((Schema.get?_redefine ..).trans (if_pos rfl)) (d.setRegex_setRegex _)

/-! ## New types -/

theorem existing_idle {l : Label} {kind : Kind} (hl : t.working.schema.idOf? l = some x)
    (hd : t.working.schema.get? x = some d) (hk : d.kind = kind) : Idle (existing l kind) (some x) t := by
  rw [Idle, existing, outcome_ask]
  simp only [hl, hd, if_pos hk]
  rfl

/-- what is found of a label is its element, of that kind -/
theorem existing_found (l : Label) (kind : Kind) : Ensures (existing l kind) t fun found t' => t' = t ∧
    ∀ x, found = some x → ∃ d, t.working.schema.idOf? l = some x ∧ t.working.schema.get? x = some d ∧
      d.kind = kind := by
  intro found t' hout
  rw [existing, outcome_ask] at hout
  obtain ⟨hfound, rfl⟩ := Prod.mk.inj hout
  refine ⟨rfl, ?_⟩
  rintro x rfl
  split at hfound
  · exact absurd (pure_eq_ok.1 hfound) nofun
  · rename_i y hl
    split at hfound
    · exact absurd (pure_eq_ok.1 hfound) nofun
    · rename_i d hd
      obtain ⟨hk, hyx⟩ := if_else_throw_eq_ok.1 hfound
      obtain rfl := Option.some.inj (pure_eq_ok.1 hyx)
      exact ⟨d, hl, hd, hk⟩

/-- an element that has not been there has the label then, and nothing declared but its body -/
theorem putType_puts (l : Label) (body : TypeBody) : Ensures (putType l body) t fun x t' => t' = t ∨
    t'.working.schema.idOf? l = some x ∧ t'.working.schema.get? x = some (.blank l body) := by
  refine .ask fun found _ => ?_
  cases found with
  | some x => exact .pure (Or.inl rfl)
  | none =>
    refine .look (.get (.ask fun _ _ => .newType (.editSchema fun schema' hs' => .record ?_)))
    have hput : schema'.idOf? l = some ⟨t.ids.next⟩ ∧ schema'.get? ⟨t.ids.next⟩ = some (.blank l body) :=
      ⟨(Schema.idOf?_insert hs' l).trans (if_pos rfl), (Schema.get?_insert hs' _).trans (if_pos rfl)⟩
    dsimp only
    split
    · exact .record (.pure (Or.inr hput))
    · exact .pure (Or.inr hput)

theorem putType_idle (l : Label) (body : TypeBody) :
    Ensures (putType l body) t fun x t' => Idle (putType l body) x t' := by
  refine Ensures.idle ((putType_puts l body).weaken fun x t' hcase => hcase.imp_right ?_)
  rintro ⟨hl, hd⟩
  exact .bind (existing_idle hl hd rfl) (.pure x)

/-- the attribute type declares the data type itself -/
theorem putAttributeType_puts (l : Label) (dataType : Option DataType) :
    Ensures (putAttributeType l dataType) t fun x t' => t' = t ∨ ∃ d, t'.working.schema.idOf? l = some x ∧
      t'.working.schema.get? x = some d ∧ d.kind = .attribute ∧ ∀ v, dataType = some v → d.dataType? = some v := by
  refine .bind ((existing_found l .attribute).weaken fun found t' => ?_)
  rintro ⟨rfl, hfound⟩
  cases found with
  | none =>
    refine (putType_puts l (.attribute dataType none)).weaken fun x t' hcase => hcase.imp_right ?_
    rintro ⟨hl, hd⟩
    exact ⟨_, hl, hd, rfl, fun _ hv => hv⟩
  | some x =>
    obtain ⟨d, hl, hd, hk⟩ := hfound x rfl
    cases dataType with
    | none => exact .pure (Or.inl rfl)
    | some v =>
      refine .look ?_
      dsimp only
      split
      · refine .bind ((adjust_cases x (·.checkSetDataType x v) (fun d => d.dataType? ≠ some v) (·.setDataType (some v))
          (.setDataType x v)).weaken fun _ t'' hcase => .pure (hcase.imp_right ?_))
        rintro ⟨e, -, he, -, rfl⟩
        obtain rfl := Option.some.inj (hd.symm.trans he)
        refine ⟨_, hl, (Schema.get?_redefine ..).trans (if_pos rfl), (d.setDataType_sameRefs _).kind.trans hk, ?_⟩
        exact fun w hw => (TypeDef.dataType?_setDataType hk _).trans hw
      · exact .pure (Or.inl rfl)

/-- so the data type is the one that is asked for, whatever is declared above -/
theorem putAttributeType_idle (l : Label) (dataType : Option DataType) :
    Ensures (putAttributeType l dataType) t fun x t' =>
      t'.working.schema.Indexed → Idle (putAttributeType l dataType) x t' := by
  intro x t' hout hs'
  rcases putAttributeType_puts l dataType x t' hout with rfl | ⟨d, hl, hd, hk, hv⟩
  · exact hout
  · refine .bind (existing_idle hl hd hk) ?_
    cases dataType with
    | none => exact .pure x
    | some v =>
      have hsame : t'.working.schema.dataType? x = some v := by rw [hs'.dataType?_eq hd, hv v rfl, Option.some_or]
      exact .look (.needless (not_not.2 hsame) (.pure x))

/-! ## Supertypes and ownerships -/

theorem setSupertype_idle (h : t.Sound first n) (a p : TypeId) :
    Ensures (setSupertype a p) t fun u t' => Idle (setSupertype a p) u t' := by
  intro u t' hout
  have hm := setSupertype_moves h a p u t' hout
  obtain ⟨_, _, hc, -⟩ := outcome_bind_eq_ok.1 hout
  rw [outcome_ask] at hc
  obtain ⟨⟨d, e, he, hp, hk, hroot, hplain⟩, -⟩ := checkSetSupertype_eq_ok.1 (congrArg Prod.fst hc)
  have hdirect : t'.working.schema.directSupertype? a = some p := (hm.parent a).trans (if_pos rfl)
  have hap : t'.working.MayStandUnder a p := by
    refine ⟨d, e, ⟨(hm.get? a).trans he.1, fun h => he.2.1 ((Schema.isMeta_congr hm.metas).1 h), he.2.2⟩,
      (hm.get? p).trans hp, hk, ?_, hplain⟩
    rwa [hm.metas]
  exact .ask (b := ()) (checkSetSupertype_eq_ok.2 ⟨hap, Or.inl hdirect⟩)
    (.look (.needless (not_not.2 hdirect) (.pure ())))

/-- after a declaration users may edit what they could before, and it is there -/
theorem declareOwnership_stays {e : TypeDef} (h : t.Sound first n) (ho : t.working.Editable owned e)
    (ownership : Ownership) : Ensures (do declareOwnership a owned ownership; record m) t fun _ t' =>
      n + drawn t t' < 2 ^ 64 → t.working.StaysEditable t'.working ∧
        ∃ d, t'.working.schema.get? a = some d ∧ d.owns[owned]? = some ownership := by
  refine (declareOwnership_redefines h ho ownership).weaken fun _ t' hmade hfit => ?_
  obtain ⟨schema₁, r, d, hrec, hd, hschema⟩ := hmade hfit
  have hstays : t.working.StaysEditable { t.working with schema := schema₁ } := by
    rcases hrec with rfl | ⟨hf, -, howned, hw⟩
    · exact fun x e hx => ⟨e, hx, rfl⟩
    · exact staysEditable_withRecord hf howned hw
  have hmore : StaysEditable ⟨schema₁, t.working.graph⟩ ⟨t'.working.schema, t.working.graph⟩ := by
    rw [hschema]
    exact staysEditable_redefine hd rfl rfl
  refine ⟨hstays.trans hmore, ?_⟩
  rw [hschema]
  exact ⟨_, (Schema.get?_redefine ..).trans (if_pos rfl), by simp⟩

theorem has_idle (h : t.Sound first n) (a owned : TypeId) :
    Ensures (has a owned) t fun u t' => n + drawn t t' < 2 ^ 64 → Idle (has a owned) u t' := by
  refine .ask fun _ hc => .ask fun d hd => ?_
  have hargs := hc
  simp only [checkHas, bind_eq_ok, editable_eq_ok] at hargs
  obtain ⟨-, -, e, ⟨ho, -⟩, -⟩ := hargs
  split
  · refine (declareOwnership_stays h ho .has).weaken fun u t' hstays hfit => ?_
    obtain ⟨hstays, d', hd', hown⟩ := hstays hfit
    have hthere : owned ∈ d'.owns := ExtTreeMap.mem_iff_isSome_getElem?.2 (by rw [hown]; rfl)
    exact .ask (hstays.checkHas hc) (.ask (Schema.require_eq_ok.2 hd') (.needless (by simp [hthere]) (.pure ())))
  · rename_i hnot
    exact .pure fun _ => .ask hc (.ask hd (.needless hnot (.pure ())))

/-- the rule asks nothing of the instances where the key is declared already -/
theorem key_idle (h : t.Sound first n) (a owned : TypeId) :
    Ensures (key a owned) t fun u t' => n + drawn t t' < 2 ^ 64 → Idle (key a owned) u t' := by
  refine .ask fun _ hc => .ask fun d hd => ?_
  have hargs := hc
  simp only [checkKey, bind_eq_ok] at hargs
  obtain ⟨_, ha, e, ho, -⟩ := hargs
  split
  · refine (declareOwnership_stays h (editable_eq_ok.1 ho).1 .key).weaken fun u t' hstays hfit => ?_
    obtain ⟨hstays, d', hd', hown⟩ := hstays hfit
    have hc' : t'.working.checkKey a owned = .ok () := by
      obtain ⟨d'', ha'⟩ := hstays.editableThingType ha
      obtain ⟨e', ho'⟩ := hstays.editable ho
      obtain rfl := Option.some.inj (hd'.symm.trans (editableThingType_eq_ok.1 ha').1.1)
      have hkey : (d'.owns[owned]?).any Ownership.isKey := by rw [hown]; rfl
      simp only [checkKey, bind_eq_ok]
      exact ⟨d', ha', e', ho', if_pos hkey⟩
    exact .ask hc' (.ask (Schema.require_eq_ok.2 hd') (.needless (not_not.2 hown) (.pure ())))
  · rename_i hnot
    exact .pure fun _ => .ask hc (.ask hd (.needless hnot (.pure ())))

end Transaction

end ConceptGraph
