/-
Deleting an element with its record, if it has one, and with all that refers to either.

- `Removed`: elements removed one by one. `removed_with_record`: in the order in which a record goes, each is free to.
- `Without`: all that comes of it. `removeAll_spec`: no step of it is refused once the rules have been asked, the schema
  stays coherent and its records stay records.
-/
import ConceptGraph.Proofs.Schema.OwnershipRecords
import ConceptGraph.Session.SchemaEdits

namespace ConceptGraph

open Std

namespace Schema

variable {s s' : Schema} {t a p x : TypeId} {d d' : TypeDef} {r r' : ImplicitOwnership}

/-! ## Declarations withdrawn -/

section Withdraw

open Transaction

variable {record : Option ImplicitOwnership}

/-- the roles that a definition loses with the record -/
def RoleOf (record : Option ImplicitOwnership) (x : TypeId) : Prop :=
  ∃ r, record = some r ∧ (x = r.ownerRole ∨ x = r.valueRole)

theorem plays_withdraw : (withdraw t record d).plays =
    match record with
    | some r => ((d.plays.erase t).erase r.ownerRole).erase r.valueRole
    | none => d.plays.erase t := by
  obtain ⟨l, ab, pl, ow, body⟩ := d
  cases body <;> cases record <;> rfl

theorem mem_plays_withdraw : x ∈ (withdraw t record d).plays ↔ x ∈ d.plays ∧ x ≠ t ∧ ¬ RoleOf record x := by
  rw [plays_withdraw]
  cases record with
  | none =>
    simp only [mem_set_erase, RoleOf, reduceCtorEq, false_and, exists_false, not_false_eq_true, and_true]
    exact and_comm
  | some r =>
    simp only [mem_set_erase, RoleOf, Option.some.injEq, exists_eq_left']
    tauto

theorem owns_withdraw : (withdraw t record d).owns = d.owns.erase t := by
  obtain ⟨l, ab, pl, ow, body⟩ := d
  cases body <;> rfl

theorem mem_owns_withdraw : x ∈ (withdraw t record d).owns ↔ x ∈ d.owns ∧ x ≠ t := by
  rw [owns_withdraw, ExtTreeMap.mem_erase, ne_eq, compare_iff, and_comm]

theorem relatesRole_withdraw : (withdraw t record d).relatesRole x ↔ d.relatesRole x ∧ x ≠ t := by
  obtain ⟨l, ab, pl, ow, body⟩ := d
  cases body with
  | relation relates implicitFor =>
    show (relates.erase t).contains x ↔ relates.contains x ∧ x ≠ t
    rw [ExtTreeSet.contains_iff_mem, ExtTreeSet.contains_iff_mem, mem_set_erase, and_comm]
  | _ => simp [withdraw, TypeDef.changeRelates, TypeDef.relatesRole, TypeDef.relates?]

@[simp] theorem label_withdraw : (withdraw t record d).label = d.label := by
  obtain ⟨l, ab, pl, ow, body⟩ := d
  cases body <;> rfl

@[simp] theorem isAbstract_withdraw : (withdraw t record d).isAbstract = d.isAbstract := by
  obtain ⟨l, ab, pl, ow, body⟩ := d
  cases body <;> rfl

@[simp] theorem kind_withdraw : (withdraw t record d).kind = d.kind := by
  obtain ⟨l, ab, pl, ow, body⟩ := d
  cases body <;> rfl

@[simp] theorem dataType?_withdraw : (withdraw t record d).dataType? = d.dataType? := by
  obtain ⟨l, ab, pl, ow, body⟩ := d
  cases body <;> rfl

@[simp] theorem regex?_withdraw : (withdraw t record d).regex? = d.regex? := by
  obtain ⟨l, ab, pl, ow, body⟩ := d
  cases body <;> rfl

@[simp] theorem implicitFor?_withdraw : (withdraw t record d).implicitFor? = d.implicitFor? := by
  obtain ⟨l, ab, pl, ow, body⟩ := d
  cases body <;> rfl

/-- a definition that plays and owns nothing, and relates something else, loses nothing -/
theorem withdraw_eq_self (hp : d.plays = ∅) (ho : d.owns = ∅) (hr : ¬ d.relatesRole t) : withdraw t record d = d := by
  have hplays : (withdraw t record d).plays = d.plays := by
    apply ExtTreeSet.ext_mem
    intro x
    rw [mem_plays_withdraw, hp]
    simp
  have howns : (withdraw t record d).owns = d.owns := by
    rw [owns_withdraw, ho]
    simp
  have hbody : (withdraw t record d).body = d.body := by
    obtain ⟨l, ab, pl, ow, body⟩ := d
    cases body with
    | relation relates implicitFor =>
      have hm : t ∉ relates := fun hm => hr (ExtTreeSet.contains_iff_mem.2 hm)
      exact congrArg (TypeBody.relation · implicitFor) (set_erase_of_not_mem hm)
    | _ => rfl
  have hall : ∀ e e' : TypeDef, e.label = e'.label → e.isAbstract = e'.isAbstract → e.plays = e'.plays →
      e.owns = e'.owns → e.body = e'.body → e = e' := by
    rintro ⟨⟩ ⟨⟩ rfl rfl rfl rfl rfl
    rfl
  exact hall _ _ label_withdraw isAbstract_withdraw hplays howns hbody

theorem withdraw_coherent (hc : s.Coherent) : (s.redefineAll (withdraw t record)).Coherent := by
  refine redefineAll_coherent hc (fun _ => label_withdraw) (fun _ => kind_withdraw) ?_ ?_ ?_ ?_
  · exact fun d x hx => (mem_plays_withdraw.1 hx).1
  · exact fun d x hx => (relatesRole_withdraw.1 hx).1
  · exact fun d x hx => (mem_owns_withdraw.1 hx).1
  · exact fun d hd => withdraw_eq_self hd.plays hd.owns fun hr => hd.not_refersTo t (Or.inr (Or.inl hr))

end Withdraw

/-! ## Elements removed -/

/-- the elements that are deleted with an element -/
def Gone (s : Schema) (t x : TypeId) : Prop := x = t ∨ ∃ r, s.implicitForOwned? t = some r ∧ r.Made x

/-- what a schema without an element, and without its record, is -/
structure Without (s s' : Schema) (t : TypeId) : Prop where
  gone : ∀ x, s.Gone t x → s'.get? x = none
  kept : ∀ x, ¬ s.Gone t x → s'.get? x = (s.get? x).map (Transaction.withdraw t (s.implicitForOwned? t))
  parent : ∀ x, ¬ s.Gone t x → s'.directSupertype? x = s.directSupertype? x
  metas : s'.metaTypes = s.metaTypes
  byOwned : ∀ a, s'.implicitForOwned? a = if a = t then none else s.implicitForOwned? a
  byRelation : ∀ a r, s'.implicitForRelation? a = some r ↔ s.implicitForRelation? a = some r ∧ r.owned ≠ t

theorem unregisterImplicit_coherent (hc : s.Coherent) (t : TypeId) : (s.unregisterImplicit t).Coherent := by
  unfold unregisterImplicit
  split
  · exact ⟨⟨hc.indexed.forests, hc.indexed.node, hc.indexed.label⟩,
      fun x e he => ⟨(hc.refs x e he).plays, (hc.refs x e he).relates, (hc.refs x e he).owns⟩, hc.nodup, hc.roots,
      hc.parented⟩
  · exact hc

theorem removeAll_of_none (hn : s.implicitForOwned? t = none)
    (hr : (s.redefineAll (Transaction.withdraw t none)).remove t = .ok (d, s')) :
    Transaction.removeAll s t = .ok s' := by
  have hu : s.unregisterImplicit t = s := by rw [unregisterImplicit, hn]
  unfold Transaction.removeAll
  simp only [hn, hu, bind_eq_ok, pure_eq_ok]
  exact ⟨_, rfl, _, hr, rfl⟩

theorem removeAll_of_some {s₁ s₂ s₃ : Schema} {d₁ d₂ d₃ : TypeDef} (hrec : s.implicitForOwned? t = some r)
    (h₁ : ((s.unregisterImplicit t).redefineAll (Transaction.withdraw t (some r))).remove r.relation = .ok (d₁, s₁))
    (h₂ : s₁.remove r.ownerRole = .ok (d₂, s₂)) (h₃ : s₂.remove r.valueRole = .ok (d₃, s₃))
    (h₄ : s₃.remove t = .ok (d, s')) : Transaction.removeAll s t = .ok s' := by
  unfold Transaction.removeAll
  simp only [hrec, bind_eq_ok, pure_eq_ok]
  exact ⟨_, h₁, _, h₂, _, h₃, _, rfl, _, h₄, rfl⟩

/-- a schema from which elements have been removed one by one -/
structure Removed (s s' : Schema) (gone : List TypeId) : Prop where
  coherent : s'.Coherent
  get? : ∀ x, s'.get? x = if x ∈ gone then none else s.get? x
  parent : ∀ x, s'.directSupertype? x = if x ∈ gone then none else s.directSupertype? x
  metas : s'.metaTypes = s.metaTypes
  byOwned : s'.implicitByOwned = s.implicitByOwned
  byRelation : s'.implicitByRelation = s.implicitByRelation

theorem Removed.refl (hc : s.Coherent) : s.Removed s [] := ⟨hc, by simp, by simp, rfl, rfl, rfl⟩

/-- an element to which nothing that is left refers, and below which nothing is left, can be removed -/
theorem Removed.remove {s₁ : Schema} {gone : List TypeId} (h : s.Removed s₁ gone) (hd : s.get? t = some d)
    (hnew : t ∉ gone) (ht : ¬ s.isMeta t) (hleaf : ∀ x ∉ gone, s.directSupertype? x ≠ some t)
    (href : ∀ x e, x ∉ gone → s.get? x = some e → ¬ e.RefersTo t) :
    ∃ s', s₁.remove t = .ok (d, s') ∧ s.Removed s' (t :: gone) := by
  have hd₁ : s₁.get? t = some d := by rw [h.get?, if_neg hnew, hd]
  obtain ⟨s', hr⟩ := remove_total h.coherent.indexed hd₁ fun x hx => by
    rw [h.parent] at hx
    split at hx
    · simp at hx
    · exact hleaf x ‹_› hx
  obtain ⟨hm, ho, hrel⟩ := tables_remove hr
  have hif : ∀ {α : Type} {x : TypeId} {v : Option α}, (if x = t then none else if x ∈ gone then none else v) =
      if x ∈ t :: gone then none else v := by
    intro α x v
    by_cases hx : x = t <;> simp [hx]
  refine ⟨s', hr, remove_coherent h.coherent hr (fun hmt => ht ((isMeta_congr h.metas).1 hmt)) fun x e he => ?_, ?_, ?_,
    hm.trans h.metas, ho.trans h.byOwned, hrel.trans h.byRelation⟩
  · rw [h.get?] at he
    split at he
    · simp at he
    · exact href x e ‹_› he
  · exact fun x => by rw [get?_remove hr, h.get?, hif]
  · exact fun x => by rw [directSupertype?_remove hr h.coherent.indexed, h.parent, hif]

theorem removeAll_none_spec (hc : s.Coherent) (hd : s.get? t = some d) (ht : ¬ s.isMeta t)
    (hleaf : ∀ x, s.directSupertype? x ≠ some t) (hn : s.implicitForOwned? t = none)
    (htr : ∀ a r, s.implicitForRelation? a = some r → r.owned ≠ t) :
    ∃ s', Transaction.removeAll s t = .ok s' ∧ s.Without s' t ∧ s'.Coherent := by
  have hget := get?_redefineAll s (Transaction.withdraw t none)
  have hc₁ : (s.redefineAll (Transaction.withdraw t none)).Coherent := withdraw_coherent hc
  obtain ⟨s', hr, h'⟩ := (Removed.refl hc₁).remove (by rw [hget, hd]; rfl) List.not_mem_nil ht (fun x _ => hleaf x) (by
    intro x e _ he
    rw [hget] at he
    obtain ⟨e', -, rfl⟩ := Option.map_eq_some_iff.1 he
    intro hcase
    rcases hcase with h | h | h
    · exact (mem_plays_withdraw.1 h).2.1 rfl
    · exact (relatesRole_withdraw.1 h).2 rfl
    · exact (mem_owns_withdraw.1 h).2 rfl)
  have hgone : ∀ x, x ∈ [t] ↔ s.Gone t x := by simp [Gone, hn]
  refine ⟨s', removeAll_of_none hn hr, ⟨?_, ?_, ?_, h'.metas, ?_, ?_⟩, h'.coherent⟩
  · intro x hx
    rw [h'.get?, if_pos ((hgone x).2 hx)]
  · intro x hx
    rw [h'.get?, if_neg (mt (hgone x).1 hx), hget, hn]
  · intro x hx
    rw [h'.parent, if_neg (mt (hgone x).1 hx)]
    rfl
  · intro a
    rw [Schema.implicitForOwned?, h'.byOwned]
    split
    · rename_i ha
      exact ha ▸ hn
    · rfl
  · intro a r
    rw [Schema.implicitForRelation?, h'.byRelation]
    exact ⟨fun h => ⟨h, htr a r h⟩, And.left⟩

/-- once its declarations are withdrawn, only the relation type of a record refers to anything that is deleted -/
theorem unreferenced_withdraw (hc : s.Coherent) (h : s.Recorded) (hr : s.HasRecord r) {d₀ : TypeDef}
    (hb : s.Backs r d₀) {e : TypeDef} (he : s.get? x = some e) {y : TypeId} (hy : r.Made y ∨ y = r.owned)
    (href : (Transaction.withdraw r.owned (some r) e).RefersTo y) : x = r.relation ∧ y ≠ r.relation := by
  have hown : y ∉ (Transaction.withdraw r.owned (some r) e).owns := by
    intro ho
    obtain ⟨ho, hne⟩ := mem_owns_withdraw.1 ho
    obtain ⟨q, hq, hqy⟩ := h.owned x y ⟨e, he, ho⟩
    obtain ⟨e', hb'⟩ := h.backed q hq
    rcases hy with hy | hy
    · exact hb'.plain (h.implicit_of_made hr (hqy ▸ hy) hb'.owned)
    · exact hne hy
  rcases href with hp | hrel | ho
  · obtain ⟨hp, hne, hnr⟩ := mem_plays_withdraw.1 hp
    rcases hy with (rfl | rfl | rfl) | hy
    · obtain ⟨g, hg, hk⟩ := (hc.refs x e he).plays _ hp
      rw [hb.relation] at hg
      rw [← Option.some.inj hg] at hk
      cases hk
    · exact absurd ⟨r, rfl, Or.inl rfl⟩ hnr
    · exact absurd ⟨r, rfl, Or.inr rfl⟩ hnr
    · exact absurd hy hne
  · obtain ⟨hrel, hne⟩ := relatesRole_withdraw.1 hrel
    rcases hy with (rfl | rfl | rfl) | hy
    · obtain ⟨g, hg, hk⟩ := (hc.refs x e he).relates _ hrel
      rw [hb.relation] at hg
      rw [← Option.some.inj hg] at hk
      cases hk
    · exact ⟨h.relates r x _ hr (Or.inl rfl) ⟨e, he, hrel⟩, hb.relation_ne_owner.symm⟩
    · exact ⟨h.relates r x _ hr (Or.inr rfl) ⟨e, he, hrel⟩, hb.relation_ne_value.symm⟩
    · exact absurd hy hne
  · exact absurd ho hown

/-- what else is deleted with the attribute type of a record goes first, with the declarations of it -/
theorem removed_with_record (hc : s.Coherent) (h : s.Recorded) (ht : ¬ s.isMeta r.owned)
    (hleaf : ∀ x, s.directSupertype? x ≠ some r.owned) (hr : s.HasRecord r) {s₀ : Schema} (hc₀ : s₀.Coherent)
    (hget : ∀ x, s₀.get? x = (s.get? x).map (Transaction.withdraw r.owned (some r)))
    (hpar : ∀ x, s₀.directSupertype? x = s.directSupertype? x) (hmeta : s₀.metaTypes = s.metaTypes) :
    ∃ d₁ s₁ d₂ s₂ d₃ s₃ d₄ s₄, s₀.remove r.relation = .ok (d₁, s₁) ∧ s₁.remove r.ownerRole = .ok (d₂, s₂) ∧
      s₂.remove r.valueRole = .ok (d₃, s₃) ∧ s₃.remove r.owned = .ok (d₄, s₄) ∧
      s₀.Removed s₄ [r.owned, r.valueRole, r.ownerRole, r.relation] := by
  obtain ⟨d₀, hb⟩ := h.backed r hr
  have href : ∀ {x e y}, s₀.get? x = some e → r.Made y ∨ y = r.owned → e.RefersTo y → x = r.relation ∧ y ≠ r.relation := by
    intro x e y he hy hxy
    rw [hget] at he
    obtain ⟨e', he', rfl⟩ := Option.map_eq_some_iff.1 he
    exact unreferenced_withdraw hc h hr hb he' hy hxy
  have hnm : ∀ {x}, r.Made x → ¬ s₀.isMeta x := fun hx hm => h.made_not_meta hc hr hx ((isMeta_congr hmeta).1 hm)
  have hlow : ∀ {x y}, r.Made y → s₀.directSupertype? x ≠ some y := by
    intro x y hy
    rw [hpar]
    exact hb.leaf x y hy
  obtain ⟨s₁, h₁, hs₁⟩ := (Removed.refl hc₀).remove (by rw [hget, hb.relation]; rfl) List.not_mem_nil (hnm (Or.inl rfl))
    (fun x _ => hlow (Or.inl rfl)) fun x e _ he hxy => (href he (Or.inl (Or.inl rfl)) hxy).2 rfl
  have hown : r.Made r.ownerRole := Or.inr (Or.inl rfl)
  obtain ⟨s₂, h₂, hs₂⟩ := hs₁.remove (by rw [hget, hb.ownerRole]; rfl) (by simp [hb.relation_ne_owner.symm]) (hnm hown)
    (fun x _ => hlow hown) fun x e hx he hxy => hx (by simp [(href he (Or.inl hown) hxy).1])
  have hval : r.Made r.valueRole := Or.inr (Or.inr rfl)
  obtain ⟨s₃, h₃, hs₃⟩ := hs₂.remove (by rw [hget, hb.valueRole]; rfl)
    (by simp [hb.owner_ne_value.symm, hb.relation_ne_value.symm]) (hnm hval) (fun x _ => hlow hval)
    fun x e hx he hxy => hx (by simp [(href he (Or.inl hval) hxy).1])
  obtain ⟨s₄, h₄, hs₄⟩ := hs₃.remove (by rw [hget, hb.owned]; rfl)
    (by simp [(hb.ne_owned hval).symm, (hb.ne_owned hown).symm, (hb.ne_owned (Or.inl rfl)).symm])
    (fun hm => ht ((isMeta_congr hmeta).1 hm)) (fun x _ => by rw [hpar]; exact hleaf x)
    fun x e hx he hxy => hx (by simp [(href he (Or.inr rfl) hxy).1])
  exact ⟨_, s₁, _, s₂, _, s₃, _, s₄, h₁, h₂, h₃, h₄, hs₄⟩

theorem removeAll_some_spec (hc : s.Coherent) (h : s.Recorded) (ht : ¬ s.isMeta r.owned)
    (hleaf : ∀ x, s.directSupertype? x ≠ some r.owned) (hr : s.HasRecord r) :
    ∃ s', Transaction.removeAll s r.owned = .ok s' ∧ s.Without s' r.owned ∧ s'.Coherent := by
  have hr' : s.implicitForOwned? r.owned = some r := hr
  have hu : s.unregisterImplicit r.owned = { s with
      implicitByOwned := s.implicitByOwned.erase r.owned
      implicitByRelation := s.implicitByRelation.erase r.relation } := by rw [unregisterImplicit, hr']
  have hget : ∀ x, ((s.unregisterImplicit r.owned).redefineAll (Transaction.withdraw r.owned (some r))).get? x =
      (s.get? x).map (Transaction.withdraw r.owned (some r)) := by
    intro x
    rw [get?_redefineAll, hu]
    rfl
  obtain ⟨_, s₁, _, s₂, _, s₃, _, s₄, h₁, h₂, h₃, h₄, hs⟩ := removed_with_record hc h ht hleaf hr
    (withdraw_coherent (unregisterImplicit_coherent hc r.owned)) hget (fun x => by rw [hu]; rfl) (by rw [hu]; rfl)
  have hgone : ∀ x, x ∈ [r.owned, r.valueRole, r.ownerRole, r.relation] ↔ s.Gone r.owned x := by
    intro x
    simp only [Gone, hr', Option.some.injEq, exists_eq_left', ImplicitOwnership.Made, List.mem_cons, List.not_mem_nil,
      or_false]
    tauto
  refine ⟨s₄, removeAll_of_some hr h₁ h₂ h₃ h₄, ⟨?_, ?_, ?_, hs.metas.trans (by rw [hu]; rfl), ?_, ?_⟩, hs.coherent⟩
  · intro x hx
    rw [hs.get?, if_pos ((hgone x).2 hx)]
  · intro x hx
    rw [hs.get?, if_neg (mt (hgone x).1 hx), hget, hr']
  · intro x hx
    rw [hs.parent, if_neg (mt (hgone x).1 hx), hu]
    rfl
  · intro a
    rw [Schema.implicitForOwned?, hs.byOwned, hu]
    exact lookup_erase ..
  · intro a q
    have : s₄.implicitByRelation = s.implicitByRelation.erase r.relation := by rw [hs.byRelation, hu]; rfl
    rw [Schema.implicitForRelation?, this, lookup_erase, ← Schema.implicitForRelation?]
    split
    · rename_i ha
      apply iff_of_false (by simp)
      rintro ⟨hq, hne⟩
      obtain ⟨hq', hqa⟩ := (h.byRelation a q).1 hq
      exact hne (h.made_unique hc.indexed hq' hr (Or.inl rfl) (Or.inl (hqa.trans ha)) ▸ rfl)
    · rename_i ha
      refine ⟨fun hq => ⟨hq, fun ho => ha ?_⟩, And.left⟩
      obtain ⟨hq', hqa⟩ := (h.byRelation a q).1 hq
      rw [HasRecord, ho] at hq'
      rw [← hqa, Option.some.inj (hr.symm.trans hq')]

/-! ## What is left -/

section Without

variable (hw : s.Without s' t)

include hw

/-- what is left has lost declarations about what is gone, and nothing else -/
theorem Without.get? {e : TypeDef} : s'.get? x = some e ↔
    ¬ s.Gone t x ∧ ∃ e', s.get? x = some e' ∧ e = Transaction.withdraw t (s.implicitForOwned? t) e' := by
  by_cases hx : s.Gone t x
  · simp [hw.gone x hx, hx]
  · simp [hw.kept x hx, hx, eq_comm]

/-- what is said by a definition that is left has been said before the declarations were withdrawn -/
theorem Without.stated {f f' : TypeDef → Prop}
    (hf : ∀ e, f' (Transaction.withdraw t (s.implicitForOwned? t) e) ↔ f e) (x : TypeId) :
    (∃ e, s'.get? x = some e ∧ f' e) ↔ ¬ s.Gone t x ∧ ∃ e, s.get? x = some e ∧ f e := by
  constructor
  · rintro ⟨e, he, hr⟩
    obtain ⟨hx, e', he', rfl⟩ := hw.get?.1 he
    exact ⟨hx, e', he', (hf e').1 hr⟩
  · rintro ⟨hx, e, he, hr⟩
    exact ⟨_, hw.get?.2 ⟨hx, e, he, rfl⟩, (hf e).2 hr⟩

theorem Without.declaresPlays (x role : TypeId) : s'.DeclaresPlays x role ↔
    ¬ s.Gone t x ∧ s.DeclaresPlays x role ∧ role ≠ t ∧ ¬ RoleOf (s.implicitForOwned? t) role := by
  calc s'.DeclaresPlays x role ↔ ¬ s.Gone t x ∧ ∃ e, s.get? x = some e ∧ role ∈ e.plays ∧ role ≠ t ∧
        ¬ RoleOf (s.implicitForOwned? t) role := hw.stated (fun _ => mem_plays_withdraw) x
    _ ↔ _ := by simp only [DeclaresPlays, ← and_assoc, exists_and_right]

theorem Without.declaresRelates (x role : TypeId) : s'.DeclaresRelates x role ↔
    ¬ s.Gone t x ∧ s.DeclaresRelates x role ∧ role ≠ t := by
  calc s'.DeclaresRelates x role ↔ ¬ s.Gone t x ∧ ∃ e, s.get? x = some e ∧ e.relatesRole role ∧ role ≠ t :=
        hw.stated (fun _ => relatesRole_withdraw) x
    _ ↔ _ := by simp only [DeclaresRelates, ← and_assoc, exists_and_right]

theorem Without.declaresOwns (x a : TypeId) : s'.DeclaresOwns x a ↔
    ¬ s.Gone t x ∧ s.DeclaresOwns x a ∧ a ≠ t := by
  calc s'.DeclaresOwns x a ↔ ¬ s.Gone t x ∧ ∃ e, s.get? x = some e ∧ a ∈ e.owns ∧ a ≠ t :=
        hw.stated (fun _ => mem_owns_withdraw) x
    _ ↔ _ := by simp only [DeclaresOwns, ← and_assoc, exists_and_right]

theorem Without.hasRecord (q : ImplicitOwnership) : s'.HasRecord q ↔ s.HasRecord q ∧ q.owned ≠ t := by
  rw [HasRecord, hw.byOwned]
  split
  · rename_i hq
    simp [hq]
  · rename_i hq
    simp [hq, HasRecord]

end Without

theorem Gone.of_hasRecord (hr : s.HasRecord r) (hx : r.Made x) : s.Gone r.owned x := Or.inr ⟨r, hr, hx⟩

/-- the elements of another record are not deleted -/
theorem not_gone_of_made (hc : s.Coherent) (h : s.Recorded) (hd : s.get? t = some d) (hplain : ¬ d.isImplicit)
    (hr : s.HasRecord r) (hne : r.owned ≠ t) (hx : r.Made x) : ¬ s.Gone t x := by
  intro hcase
  rcases hcase with rfl | ⟨q, hq, hqx⟩
  · exact hplain (h.implicit_of_made hr hx hd)
  · obtain ⟨hq, hqt⟩ := h.implicitForOwned?.1 hq
    exact hne (h.made_unique hc.indexed hr hq hx hqx ▸ hqt)

theorem Without.backs (hw : s.Without s' t) (hc : s.Coherent) (hc' : s'.Coherent) (h : s.Recorded)
    (hd : s.get? t = some d) (hplain : ¬ d.isImplicit) (hr : s.HasRecord r) (hne : r.owned ≠ t) {e : TypeDef}
    (hb : s.Backs r e) : s'.Backs r (Transaction.withdraw t (s.implicitForOwned? t) e) := by
  have hkeep : ∀ {x}, r.Made x → ¬ s.Gone t x := fun hx => not_gone_of_made hc h hd hplain hr hne hx
  have hrole : ∀ {x}, r.Made x → x ≠ t := fun hx he => hkeep hx (Or.inl he)
  refine hb.keep hw.metas ?_ ?_ label_withdraw kind_withdraw ?_
  · intro x hx
    refine ⟨?_, hw.parent x (hkeep hx)⟩
    rw [hw.kept x (hkeep hx)]
    rcases hx with rfl | rfl | rfl
    · rw [hb.relation, Option.map_some, withdraw_eq_self rfl rfl]
      intro hrel
      rcases (r.relatesRole_relationDef _ _).1 hrel with ht | ht
      · exact hrole (Or.inr (Or.inl rfl)) ht.symm
      · exact hrole (Or.inr (Or.inr rfl)) ht.symm
    · rw [hb.ownerRole, Option.map_some, withdraw_eq_self rfl rfl]
      simp [TypeDef.relatesRole, TypeDef.relates?, TypeDef.blank]
    · rw [hb.valueRole, Option.map_some, withdraw_eq_self rfl rfl]
      simp [TypeDef.relatesRole, TypeDef.relates?, TypeDef.blank]
  · refine hw.get?.2 ⟨?_, e, hb.owned, rfl⟩
    intro hcase
    rcases hcase with he | ⟨q, hq, hm⟩
    · exact hne he
    · exact hb.plain (h.implicit_of_made (h.implicitForOwned?.1 hq).1 hm hb.owned)
  · intro x y hy
    by_cases hx : s.Gone t x
    · intro hp
      obtain ⟨e, -, he, -⟩ := hc'.indexed.defined_of_directSupertype? hp
      rw [hw.gone x hx] at he
      simp at he
    · rw [hw.parent x hx]
      exact hb.leaf x y hy

/-- the roles of records that are left are left as well, and the declarations about them stand -/
theorem Without.role_left (hw : s.Without s' t) (hc : s.Coherent) (h : s.Recorded) (hd : s.get? t = some d)
    (hplain : ¬ d.isImplicit) (hr : s'.HasRecord r) (hx : r.Made x) : x ≠ t ∧ ¬ RoleOf (s.implicitForOwned? t) x := by
  obtain ⟨hr, hne⟩ := (hw.hasRecord r).1 hr
  have hkeep := not_gone_of_made hc h hd hplain hr hne hx
  refine ⟨fun he => hkeep (Or.inl he), ?_⟩
  rintro ⟨q, hq, hm⟩
  exact hkeep (Or.inr ⟨q, hq, Or.inr hm⟩)

theorem Without.owned_left (hw : s.Without s' t) (h : s.Recorded) (hr : s'.HasRecord r) : ¬ s.Gone t r.owned := by
  obtain ⟨hr, hne⟩ := (hw.hasRecord r).1 hr
  intro hcase
  rcases hcase with he | ⟨q, hq, hm⟩
  · exact hne he
  · obtain ⟨e, hb⟩ := h.backed r hr
    exact hb.plain (h.implicit_of_made (h.implicitForOwned?.1 hq).1 hm hb.owned)

theorem Without.recorded (hw : s.Without s' t) (hc : s.Coherent) (hc' : s'.Coherent) (h : s.Recorded)
    (hd : s.get? t = some d) (hplain : ¬ d.isImplicit) : s'.Recorded where
  byOwned a q hq := by
    rw [hw.byOwned] at hq
    split at hq
    · simp at hq
    · exact h.byOwned a q hq
  byRelation x q := by
    rw [hw.byRelation, hw.hasRecord, h.byRelation]
    tauto
  backed q hq := by
    obtain ⟨hq, hne⟩ := (hw.hasRecord q).1 hq
    obtain ⟨e, hb⟩ := h.backed q hq
    exact ⟨_, hw.backs hc hc' h hd hplain hq hne hb⟩
  reserved x e he hi := by
    obtain ⟨hx, e', he', rfl⟩ := hw.get?.1 he
    obtain ⟨q, hq, hm⟩ := h.reserved x e' he' ((TypeDef.isImplicit_congr label_withdraw).1 hi)
    exact ⟨q, (hw.hasRecord q).2 ⟨hq, fun hqt => hx (hqt ▸ Gone.of_hasRecord hq hm)⟩, hm⟩
  marked x e a he ha := by
    obtain ⟨hx, e', he', rfl⟩ := hw.get?.1 he
    rw [implicitFor?_withdraw] at ha
    exact (TypeDef.isImplicit_congr label_withdraw).2 (h.marked x e' a he' ha)
  unscoped x e he hi := by
    obtain ⟨hx, e', he', rfl⟩ := hw.get?.1 he
    rw [label_withdraw]
    exact h.unscoped x e' he' fun hi' => hi ((TypeDef.isImplicit_congr label_withdraw).2 hi')
  relates q x role hq hqr hx := h.relates q x role ((hw.hasRecord q).1 hq).1 hqr ((hw.declaresRelates x role).1 hx).2.1
  ownerPlays q x hq := by
    obtain ⟨hq', hne⟩ := (hw.hasRecord q).1 hq
    have hleft := hw.role_left hc h hd hplain hq (Or.inr (Or.inl rfl))
    rw [hw.declaresPlays, hw.declaresOwns, h.ownerPlays q x hq']
    simp [hleft, hne]
  valuePlays q x hq := by
    have hleft := hw.role_left hc h hd hplain hq (Or.inr (Or.inr rfl))
    rw [hw.declaresPlays, h.valuePlays q x ((hw.hasRecord q).1 hq).1, and_iff_left hleft, and_iff_right_iff_imp]
    rintro rfl
    exact hw.owned_left h hq
  owned x a hx := by
    obtain ⟨-, hx, ha⟩ := (hw.declaresOwns x a).1 hx
    obtain ⟨q, hq, rfl⟩ := h.owned x a hx
    exact ⟨q, (hw.hasRecord q).2 ⟨hq, ha⟩, rfl⟩

/-- **Deleting.** An element of a user without subtypes is deleted with its record and with all that refers to them. -/
theorem removeAll_spec (hc : s.Coherent) (h : s.Recorded) (hd : s.get? t = some d) (ht : ¬ s.isMeta t)
    (hplain : ¬ d.isImplicit) (hleaf : ∀ x, s.directSupertype? x ≠ some t) :
    ∃ s', Transaction.removeAll s t = .ok s' ∧ s.Without s' t ∧ s'.Coherent ∧ s'.Recorded := by
  have key : ∃ s', Transaction.removeAll s t = .ok s' ∧ s.Without s' t ∧ s'.Coherent := by
    cases hr : s.implicitForOwned? t with
    | none =>
      apply removeAll_none_spec hc hd ht hleaf hr
      intro a q hq ho
      obtain ⟨hq, -⟩ := (h.byRelation a q).1 hq
      rw [HasRecord, ho, hr] at hq
      simp at hq
    | some r =>
      obtain ⟨hr, rfl⟩ := h.implicitForOwned?.1 hr
      exact removeAll_some_spec hc h ht hleaf hr
  obtain ⟨s', hs', hw, hc'⟩ := key
  exact ⟨s', hs', hw, hc', hw.recorded hc hc' h hd hplain⟩

end Schema

end ConceptGraph
