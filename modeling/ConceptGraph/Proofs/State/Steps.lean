/-
What one edit does to a state, as far as instances are concerned.

- `SchemaStep`: an edit of the schema leaves the graph as it is, and each instance keeps its type and, if it records an
  ownership, the record. The exception is a relation type in `lost`, which is gone and so is its record.
- `GraphStep`: an edit of the graph leaves the schema as it is, makes no instances without a type, and keeps ownerships
  but those in `gone`.

Both keep a state sound, and count the identifiers that were drawn.
-/
import ConceptGraph.Proofs.State.GraphSteps
import ConceptGraph.Proofs.State.HierarchySteps

namespace ConceptGraph

open Std

/-- two definitions that refer to the same elements in the same ways -/
structure TypeDef.SameRefs (d d' : TypeDef) : Prop where
  label : d'.label = d.label
  kind : d'.kind = d.kind
  implicitFor : d'.implicitFor? = d.implicitFor?
  plays : ∀ x, x ∈ d'.plays ↔ x ∈ d.plays
  relates : ∀ x, d'.relatesRole x ↔ d.relatesRole x
  owns : ∀ x, x ∈ d'.owns ↔ x ∈ d.owns

namespace TypeDef

theorem setDataType_sameRefs (d : TypeDef) (v : Option DataType) : d.SameRefs (d.setDataType v) := by
  obtain ⟨l, ab, pl, ow, body⟩ := d
  cases body <;> exact ⟨rfl, rfl, rfl, fun _ => Iff.rfl, fun _ => Iff.rfl, fun _ => Iff.rfl⟩

theorem setRegex_sameRefs (d : TypeDef) (p : Option Pattern) : d.SameRefs (d.setRegex p) := by
  obtain ⟨l, ab, pl, ow, body⟩ := d
  cases body <;> exact ⟨rfl, rfl, rfl, fun _ => Iff.rfl, fun _ => Iff.rfl, fun _ => Iff.rfl⟩

theorem setDataType_other (d : TypeDef) (v : Option DataType) :
    (d.setDataType v).isAbstract = d.isAbstract ∧ (d.setDataType v).regex? = d.regex? := by
  obtain ⟨l, ab, pl, ow, body⟩ := d
  cases body <;> exact ⟨rfl, rfl⟩

theorem setRegex_other (d : TypeDef) (p : Option Pattern) :
    (d.setRegex p).isAbstract = d.isAbstract ∧ (d.setRegex p).dataType? = d.dataType? := by
  obtain ⟨l, ab, pl, ow, body⟩ := d
  cases body <;> exact ⟨rfl, rfl⟩

theorem dataType?_setDataType {d : TypeDef} (hk : d.kind = .attribute) (v : Option DataType) :
    (d.setDataType v).dataType? = v := by
  obtain ⟨l, ab, pl, ow, body⟩ := d
  cases body <;> first | rfl | cases hk

theorem regex?_setRegex {d : TypeDef} (hk : d.kind = .attribute) (p : Option Pattern) : (d.setRegex p).regex? = p := by
  obtain ⟨l, ab, pl, ow, body⟩ := d
  cases body <;> first | rfl | cases hk

/-- what stays of a definition whose related roles change -/
theorem changeRelates_other (d : TypeDef) (f : ExtTreeSet TypeId → ExtTreeSet TypeId) :
    (d.changeRelates f).label = d.label ∧ (d.changeRelates f).kind = d.kind ∧
      (d.changeRelates f).implicitFor? = d.implicitFor? ∧ (d.changeRelates f).isAbstract = d.isAbstract ∧
      (d.changeRelates f).plays = d.plays ∧ (d.changeRelates f).owns = d.owns ∧
      (d.changeRelates f).dataType? = d.dataType? ∧ (d.changeRelates f).regex? = d.regex? := by
  obtain ⟨l, ab, pl, ow, body⟩ := d
  cases body <;> exact ⟨rfl, rfl, rfl, rfl, rfl, rfl, rfl, rfl⟩

theorem relatesRole_insert {d : TypeDef} (hk : d.kind = .relation) (role x : TypeId) :
    (d.changeRelates (·.insert role)).relatesRole x ↔ x = role ∨ d.relatesRole x := by
  obtain ⟨l, ab, pl, ow, body⟩ := d
  cases body with
  | relation relates implicitFor =>
    show (relates.insert role).contains x ↔ x = role ∨ relates.contains x
    rw [ExtTreeSet.contains_iff_mem, ExtTreeSet.contains_iff_mem, mem_set_insert]
  | _ => cases hk

theorem relatesRole_erase (d : TypeDef) (role x : TypeId) :
    (d.changeRelates (·.erase role)).relatesRole x ↔ d.relatesRole x ∧ x ≠ role := by
  obtain ⟨l, ab, pl, ow, body⟩ := d
  cases body with
  | relation relates implicitFor =>
    show (relates.erase role).contains x ↔ relates.contains x ∧ x ≠ role
    rw [ExtTreeSet.contains_iff_mem, ExtTreeSet.contains_iff_mem, mem_set_erase, and_comm]
  | _ => simp [changeRelates, relatesRole, relates?]

end TypeDef

namespace State

/-- an edit of the schema, with `k` more identifiers drawn -/
structure SchemaStep (first : UInt64) (n k : Nat) (lost : TypeId → Prop) (s s' : State) : Prop where
  sound : s'.Sound first (n + k)
  graph : s'.graph = s.graph
  records : ∀ id b, s.graph.bare? id = some b → ¬ lost b.type →
    s'.schema.implicitForRelation? b.type = s.schema.implicitForRelation? b.type
  types : ∀ id b, s.graph.bare? id = some b → ¬ lost b.type →
    (∃ d, s.schema.get? b.type = some d) → ∃ d, s'.schema.get? b.type = some d
  lost : ∀ t, lost t → s'.schema.get? t = none ∧ s'.schema.implicitForRelation? t = none

/-- an edit of the graph, with `k` more identifiers drawn -/
structure GraphStep (first : UInt64) (n k : Nat) (gone : ThingId → ThingId → Prop) (s s' : State) : Prop where
  sound : s'.Sound first (n + k)
  schema : s'.schema = s.schema
  types : ∀ id b, s'.graph.bare? id = some b →
    s.graph.bare? id = some b ∨ ∃ d, s.schema.get? b.type = some d
  edges : ∀ q r o a, s.Edge q r o a → ¬ gone o a → s'.Edge q r o a

variable {s s' : State} {schema' : Schema} {graph' : Graph} {first : UInt64} {n : Nat} {t : TypeId} {d d' : TypeDef}

/-! ## Edits of the schema -/

/-- no relation type is lost -/
abbrev NoneLost : TypeId → Prop := fun _ => False

theorem SchemaStep.refl (h : s.Sound first n) : SchemaStep first n 0 NoneLost s s :=
  ⟨h, rfl, fun _ _ _ _ => rfl, fun _ _ _ _ hd => hd, fun _ => False.elim⟩

theorem SchemaStep.trans {s'' : State} {k l : Nat} (h : SchemaStep first n k NoneLost s s')
    (h' : SchemaStep first (n + k) l NoneLost s' s'') : SchemaStep first n (k + l) NoneLost s s'' := by
  refine ⟨Nat.add_assoc n k l ▸ h'.sound, h'.graph.trans h.graph, ?_, ?_, fun _ => False.elim⟩
  · intro id b hb _
    exact (h'.records id b (h.graph ▸ hb) not_false).trans (h.records id b hb not_false)
  · intro id b hb _ hd
    exact h'.types id b (h.graph ▸ hb) not_false (h.types id b hb not_false hd)

/-- a schema that declares at least what the old one does -/
theorem Sound.extend_step {k : Nat} (h : s.Sound first n)
    (hx : s.schema.Extends (fun t => Issued first n t.raw) schema')
    (hs : ({ s with schema := schema' } : State).Sound first (n + k)) :
    SchemaStep first n k NoneLost s { s with schema := schema' } := by
  refine ⟨hs, rfl, ?_, ?_, fun _ => False.elim⟩
  · exact fun id b hb _ => hx.byRelation _ (h.issuedThings id b hb).2
  · rintro id b - - ⟨d, hd⟩
    obtain ⟨d', hd', -⟩ := hx.defs _ d hd
    exact ⟨d', hd'⟩

/-- an element that users may edit belongs to no record -/
theorem Editable.not_made (he : s.Editable t d) (hr : s.schema.Recorded) {r : ImplicitOwnership}
    (hrec : s.schema.HasRecord r) : ¬ r.Made t := fun hm => he.2.2 (hr.implicit_of_made hrec hm he.1)

/-- what an element of a user declares about records -/
theorem Editable.about_records (he : s.Editable t d) (hr : s.schema.Recorded) :
    (∀ r, s.schema.HasRecord r → ¬ d.relatesRole r.ownerRole ∧ ¬ d.relatesRole r.valueRole) ∧
    (∀ r, s.schema.HasRecord r → (r.ownerRole ∈ d.plays ↔ r.owned ∈ d.owns)) ∧
    ∀ a ∈ d.owns, ∃ r, s.schema.HasRecord r ∧ r.owned = a := by
  refine ⟨fun r hrec => ⟨fun hrel => ?_, fun hrel => ?_⟩, fun r hrec => ?_, fun a ha => hr.owned t a ⟨d, he.1, ha⟩⟩
  · exact he.not_made hr hrec (Or.inl (hr.relates r t _ hrec (Or.inl rfl) ⟨d, he.1, hrel⟩))
  · exact he.not_made hr hrec (Or.inl (hr.relates r t _ hrec (Or.inr rfl) ⟨d, he.1, hrel⟩))
  · have := hr.ownerPlays r t hrec
    simpa only [Schema.DeclaresPlays, Schema.DeclaresOwns, he.1, Option.some.injEq, exists_eq_left'] using this

/-- **Another definition** of an element of a user -/
theorem Sound.redefine_step (h : s.Sound first n) (he : s.Editable t d) (hl : d'.label = d.label) (hk : d'.kind = d.kind)
    (hfor : d'.implicitFor? = d.implicitFor?) (hrefs : s.schema.RefsDefined d')
    (hrelates : ∀ r, s.schema.HasRecord r → ¬ d'.relatesRole r.ownerRole ∧ ¬ d'.relatesRole r.valueRole)
    (howner : ∀ r, s.schema.HasRecord r → (r.ownerRole ∈ d'.plays ↔ r.owned ∈ d'.owns))
    (hvalue : ∀ r, s.schema.HasRecord r → (r.valueRole ∈ d'.plays ↔ r.valueRole ∈ d.plays))
    (howned : ∀ a ∈ d'.owns, ∃ r, s.schema.HasRecord r ∧ r.owned = a) (hsp : s.Spared t d d') :
    SchemaStep first n 0 NoneLost s { s with schema := s.schema.redefine t d' } := by
  have hr := Schema.redefine_recorded h.recorded he.1 he.2.2 hl hk hfor hrelates howner hvalue howned
  refine ⟨h.redefine he.1 he.2.1 hl hk hrefs hr hsp, rfl, fun _ _ _ _ => rfl, ?_, fun _ => False.elim⟩
  rintro id b - - ⟨e, hb⟩
  have hget := Schema.get?_redefine s.schema t d' b.type
  split at hget
  · exact ⟨d', hget⟩
  · exact ⟨e, hget.trans hb⟩

/-- nothing that instances may do is lost where a definition refers to what it did -/
theorem Spared.of_sameRefs (hs : d.SameRefs d')
    (hab : d'.isAbstract → ¬ d.isAbstract → ∀ id b, s.graph.bare? id = some b → b.type ≠ t)
    (hdt : d'.dataType? ≠ d.dataType? → (∀ id b, s.graph.bare? id = some b → t ∉ s.schema.supertypes b.type) ∧
      ∀ x v w, x ∈ s.schema.supertypes t ∨ t ∈ s.schema.supertypes x → x ≠ t → d'.dataType? = some v →
        s.schema.declaredDataType? x = some w → v = w)
    (hre : ∀ p, d'.regex? = some p → d.regex? ≠ some p → ∀ id b v text, s.graph.bare? id = some b →
      b.value? = some v → v.string? = some text → t ∈ s.schema.supertypes b.type → p.isMatch text) :
    s.Spared t d d' where
  isAbstract := hab
  dataType := hdt
  regex := hre
  plays role hr hn := absurd ((hs.plays role).2 hr) hn
  relates role hr hn := absurd ((hs.relates role).2 hr) hn
  owns a ha hn := absurd ((hs.owns a).2 ha) hn

/-- a definition that differs in nothing that it refers to -/
theorem Sound.redefine_body_step (h : s.Sound first n) (he : s.Editable t d) (hs : d.SameRefs d')
    (hsp : s.Spared t d d') : SchemaStep first n 0 NoneLost s { s with schema := s.schema.redefine t d' } := by
  obtain ⟨hrel, hown, howned⟩ := he.about_records h.recorded
  refine h.redefine_step he hs.label hs.kind hs.implicitFor ?_ ?_ ?_ (fun r _ => hs.plays _) ?_ hsp
  · exact (h.coherent.refs t d he.1).fewer (fun x => (hs.plays x).1) (fun x => (hs.relates x).1) fun x => (hs.owns x).1
  · exact fun r hrec =>
      ⟨fun hx => (hrel r hrec).1 ((hs.relates _).1 hx), fun hx => (hrel r hrec).2 ((hs.relates _).1 hx)⟩
  · exact fun r hrec => (hs.plays _).trans ((hown r hrec).trans (hs.owns _).symm)
  · exact fun a ha => howned a ((hs.owns a).1 ha)

/-- **One more role** that instances may play, which belongs to no record -/
theorem Sound.plays_step {role : TypeId} {e : TypeDef} (h : s.Sound first n) (he : s.Editable t d)
    (hr : s.Editable role e) (hk : e.kind = .role) : SchemaStep first n 0 NoneLost s
      { s with schema := s.schema.redefine t { d with plays := d.plays.insert role } } := by
  obtain ⟨hrel, hown, howned⟩ := he.about_records h.recorded
  have hrefs := h.coherent.refs t d he.1
  have hne : ∀ {r x}, s.schema.HasRecord r → r.Made x → (x ∈ d.plays.insert role ↔ x ∈ d.plays) := by
    intro r x hrec hx
    rw [mem_set_insert]
    apply or_iff_right
    rintro rfl
    exact hr.not_made h.recorded hrec hx
  refine h.redefine_step he rfl rfl rfl ⟨fun x hx => ?_, hrefs.relates, hrefs.owns⟩ hrel ?_ ?_ howned
    (.of_declaresAll ⟨rfl, id, fun x hx => mem_set_insert.2 (Or.inr hx), fun _ => id, fun _ => id, rfl, rfl⟩)
  · rcases mem_set_insert.1 hx with rfl | hx
    · exact ⟨e, hr.1, hk⟩
    · exact hrefs.plays x hx
  · exact fun r hrec => (hne hrec (Or.inr (Or.inl rfl))).trans (hown r hrec)
  · exact fun r hrec => hne hrec (Or.inr (Or.inr rfl))

/-- **One role less** that instances may play, which none relies on -/
theorem Sound.unplay_step {role : TypeId} {e : TypeDef} (h : s.Sound first n) (he : s.Editable t d)
    (hr : s.Editable role e) (hused : ∀ r p c, s.graph.Plays r role p → s.graph.bare? p = some c →
      t ∈ s.schema.supertypes c.type → s.schema.playsWithout (some (t, role)) c.type role) :
    SchemaStep first n 0 NoneLost s
      { s with schema := s.schema.redefine t { d with plays := d.plays.erase role } } := by
  obtain ⟨hrel, hown, howned⟩ := he.about_records h.recorded
  have hne : ∀ {r x}, s.schema.HasRecord r → r.Made x → (x ∈ d.plays.erase role ↔ x ∈ d.plays) := by
    intro r x hrec hx
    rw [mem_set_erase]
    apply and_iff_right
    rintro rfl
    exact hr.not_made h.recorded hrec hx
  refine h.redefine_step he rfl rfl rfl ((h.coherent.refs t d he.1).fewer
    (fun x hx => (mem_set_erase.1 hx).2) (fun _ => id) fun _ => id) hrel ?_ ?_ howned ?_
  · exact fun r hrec => (hne hrec (Or.inr (Or.inl rfl))).trans (hown r hrec)
  · exact fun r hrec => hne hrec (Or.inr (Or.inr rfl))
  · refine ⟨fun h₁ h₂ => absurd h₁ h₂, fun hn => absurd rfl hn, fun p hp hn => absurd hp hn, ?_,
      fun _ hx hn => absurd hx hn, fun _ ha hn => absurd ha hn⟩
    intro x hx hn r b p c _ _ hp hc ht
    obtain rfl : x = role := by
      by_contra hxr
      exact hn (mem_set_erase.2 ⟨hxr, hx⟩)
    exact hused r p c hp hc ht

/-- **One more role** that relations relate, which belongs to no record -/
theorem Sound.relates_step {role : TypeId} {e : TypeDef} (h : s.Sound first n) (he : s.Editable t d)
    (ht : d.kind = .relation) (hr : s.Editable role e) (hk : e.kind = .role) : SchemaStep first n 0 NoneLost s
      { s with schema := s.schema.redefine t (d.changeRelates (·.insert role)) } := by
  obtain ⟨hrel, hown, howned⟩ := he.about_records h.recorded
  have hrefs := h.coherent.refs t d he.1
  obtain ⟨hl, hkind, hfor, hab, hplays, howns, hdt, hre⟩ := d.changeRelates_other (·.insert role)
  have hnot : ∀ {r x}, s.schema.HasRecord r → r.Made x → ¬ d.relatesRole x →
      ¬ (d.changeRelates (·.insert role)).relatesRole x := by
    intro r x hrec hx hold hnew
    rcases (TypeDef.relatesRole_insert ht role x).1 hnew with rfl | hx'
    · exact hr.not_made h.recorded hrec hx
    · exact hold hx'
  refine h.redefine_step he hl hkind hfor ⟨hplays ▸ hrefs.plays, fun x hx => ?_, howns ▸ hrefs.owns⟩ ?_ ?_ ?_ ?_
    (.of_declaresAll ⟨hkind, fun hb => hab ▸ hb, fun x hx => hplays ▸ hx,
      fun x hx => (TypeDef.relatesRole_insert ht role x).2 (Or.inr hx), fun x hx => howns ▸ hx, hdt, hre⟩)
  · rcases (TypeDef.relatesRole_insert ht role x).1 hx with rfl | hx
    · exact ⟨e, hr.1, hk⟩
    · exact hrefs.relates x hx
  · exact fun r hrec => ⟨hnot hrec (Or.inr (Or.inl rfl)) (hrel r hrec).1, hnot hrec (Or.inr (Or.inr rfl)) (hrel r hrec).2⟩
  · exact fun r hrec => by rw [hplays, howns]; exact hown r hrec
  · exact fun r hrec => by rw [hplays]
  · exact fun a ha => howned a (howns ▸ ha)

/-- **One role less** that relations relate, in which no instance has a player -/
theorem Sound.unrelate_step {role : TypeId} (h : s.Sound first n) (he : s.Editable t d)
    (hused : ∀ r b p, s.graph.bare? r = some b → s.graph.Plays r role p → t ∈ s.schema.supertypes b.type →
      s.schema.relatesWithout (some (t, role)) b.type role) : SchemaStep first n 0 NoneLost s
      { s with schema := s.schema.redefine t (d.changeRelates (·.erase role)) } := by
  obtain ⟨hrel, hown, howned⟩ := he.about_records h.recorded
  obtain ⟨hl, hkind, hfor, hab, hplays, howns, hdt, hre⟩ := d.changeRelates_other (·.erase role)
  have hfewer : ∀ {x}, (d.changeRelates (·.erase role)).relatesRole x → d.relatesRole x :=
    fun hx => ((d.relatesRole_erase role _).1 hx).1
  refine h.redefine_step he hl hkind hfor ((h.coherent.refs t d he.1).fewer (fun x hx => hplays ▸ hx)
    (fun x hx => hfewer hx) fun x hx => howns ▸ hx) ?_ ?_ ?_ ?_ ?_
  · exact fun r hrec => ⟨fun hx => (hrel r hrec).1 (hfewer hx), fun hx => (hrel r hrec).2 (hfewer hx)⟩
  · exact fun r hrec => by rw [hplays, howns]; exact hown r hrec
  · exact fun r hrec => by rw [hplays]
  · exact fun a ha => howned a (howns ▸ ha)
  · refine ⟨fun h₁ h₂ => absurd (hab ▸ h₁) h₂, fun hn => absurd hdt hn, fun p hp hn => absurd (hre ▸ hp) hn,
      fun _ hx hn => absurd (hplays ▸ hx) hn, ?_, fun _ ha hn => absurd (howns ▸ ha) hn⟩
    intro x hx hn r b p hb hp ht
    obtain rfl : x = role := by
      by_contra hxr
      exact hn ((d.relatesRole_erase role x).2 ⟨hx, hxr⟩)
    exact hused r b p hb hp ht

/-- three identifiers in a row are as fresh as the record of an ownership needs them -/
theorem Sound.freshFor (h : s.Sound first n) (hn : n + 3 < 2 ^ 64) {r : ImplicitOwnership}
    (hrel : r.relation.raw = first + UInt64.ofNat n) (hown : r.ownerRole.raw = first + UInt64.ofNat (n + 1))
    (hval : r.valueRole.raw = first + UInt64.ofNat (n + 2)) : s.schema.FreshFor r ∧
      ∀ x, r.Made x → ¬ Issued first n x.raw ∧ Issued first (n + 3) x.raw := by
  have hne : ∀ {x y : TypeId} {i j : Nat}, x.raw = first + UInt64.ofNat i → y.raw = first + UInt64.ofNat j →
      i < 2 ^ 64 → j < 2 ^ 64 → i ≠ j → x ≠ y := by
    rintro x y i j hx hy hi hj hij rfl
    have := toNat_offset first hi
    rw [← hx, hy, toNat_offset first hj] at this
    exact hij this.symm
  have hmade : ∀ x, r.Made x → ∃ i, x.raw = first + UInt64.ofNat i ∧ n ≤ i ∧ i < n + 3 := by
    rintro x (rfl | rfl | rfl)
    · exact ⟨n, hrel, by omega, by omega⟩
    · exact ⟨n + 1, hown, by omega, by omega⟩
    · exact ⟨n + 2, hval, by omega, by omega⟩
  refine ⟨⟨fun x hx => ?_, ?_, ?_, ?_⟩, fun x hx => ?_⟩
  · obtain ⟨i, hi, hni, hi3⟩ := hmade x hx
    exact h.get?_next hi (by omega) hni
  · exact hne hrel hown (by omega) (by omega) (by omega)
  · exact hne hrel hval (by omega) (by omega) (by omega)
  · exact hne hown hval (by omega) (by omega) (by omega)
  · obtain ⟨i, hi, hni, hi3⟩ := hmade x hx
    rw [hi, issued_offset (by omega), issued_offset (by omega)]
    omega

/-- **A first declaration** goes through, and leaves all elements for users to edit that were so before. -/
theorem Sound.record_step (h : s.Sound first n) (hn : n + 3 < 2 ^ 64) {r : ImplicitOwnership} {e : TypeDef}
    (he : s.Editable r.owned e) (hk : e.kind = .attribute) (hnone : s.schema.implicitForOwned? r.owned = none)
    (hrel : r.relation.raw = first + UInt64.ofNat n) (hown : r.ownerRole.raw = first + UInt64.ofNat (n + 1))
    (hval : r.valueRole.raw = first + UInt64.ofNat (n + 2)) : ∃ schema',
      Transaction.insertImplicit s.schema r e.label = .ok schema' ∧
      SchemaStep first n 3 NoneLost s { s with schema := schema' } ∧ schema'.HasRecord r ∧
      ∀ x d, s.Editable x d → ∃ d', ({ s with schema := schema' } : State).Editable x d' := by
  obtain ⟨hfresh, hmade⟩ := h.freshFor hn hrel hown hval
  obtain ⟨schema', hs', hw, hc, hr⟩ :=
    Schema.insertImplicit_spec h.coherent h.recorded hfresh he.1 hk he.2.1 he.2.2 hnone
  refine ⟨schema', hs', ?_, by rw [Schema.HasRecord, hw.byOwned, if_pos rfl], ?_⟩
  · exact h.extend_step (h.record_extends hw he.1 fun x hx => (hmade x hx).1)
      (h.withRecord hw hc hr he.1 hmade (Nat.le_add_right n 3))
  · rintro x d ⟨hd, hm, hi⟩
    have hm' : ¬ schema'.isMeta x := fun hx => hm ((Schema.isMeta_congr hw.metas).1 hx)
    by_cases hx : x = r.owned
    · exact ⟨{ e with plays := e.plays.insert r.valueRole }, hx ▸ hw.owned, hm', he.2.2⟩
    · refine ⟨d, (hw.other x hx fun hmx => ?_).trans hd, hm', hi⟩
      have := hfresh.unused x hmx
      rw [hd] at this
      simp at this

/-- **Owning** an attribute type, in one way or the other, once there is a record -/
theorem Sound.own_step {r : ImplicitOwnership} (h : s.Sound first n) (he : s.Editable t d)
    (hrec : s.schema.HasRecord r) (ownership : Ownership) : SchemaStep first n 0 NoneLost s
      { s with schema := s.schema.redefine t { d with
        plays := d.plays.insert r.ownerRole, owns := d.owns.insert r.owned ownership } } := by
  obtain ⟨hrel, hown, howned⟩ := he.about_records h.recorded
  have hrefs := h.coherent.refs t d he.1
  obtain ⟨e, hback⟩ := h.recorded.backed r hrec
  have hsame : ∀ {q x}, s.schema.HasRecord q → q.Made x → r.Made x → q = r :=
    fun hq hx hx' => h.recorded.made_unique h.coherent.indexed hq hrec hx hx'
  have hmem : ∀ x, x ∈ d.owns.insert r.owned ownership ↔ x = r.owned ∨ x ∈ d.owns := by
    intro x
    rw [ExtTreeMap.mem_insert, compare_iff]
  refine h.redefine_step he rfl rfl rfl ⟨fun x hx => ?_, hrefs.relates, fun x hx => ?_⟩ hrel ?_ ?_ ?_
    (.of_declaresAll ⟨rfl, id, fun x hx => mem_set_insert.2 (Or.inr hx), fun _ => id,
      fun x hx => (hmem x).2 (Or.inr hx), rfl, rfl⟩)
  · rcases mem_set_insert.1 hx with rfl | hx
    · exact ⟨_, hback.ownerRole, rfl⟩
    · exact hrefs.plays x hx
  · rcases (hmem x).1 hx with rfl | hx
    · exact ⟨e, hback.owned, hback.kind⟩
    · exact hrefs.owns x hx
  · intro q hq
    rw [mem_set_insert, hmem, hown q hq]
    refine or_congr_left ⟨fun hr => ?_, fun ho => ?_⟩
    · rw [hsame hq (Or.inr (Or.inl rfl)) (Or.inr (Or.inl hr))]
    · rw [Schema.HasRecord, ho] at hq
      rw [Option.some.inj (hq.symm.trans hrec)]
  · intro q hq
    rw [mem_set_insert]
    apply or_iff_right
    intro hr
    obtain rfl := hsame hq (Or.inr (Or.inr rfl)) (Or.inr (Or.inl hr))
    exact hback.owner_ne_value hr.symm
  · intro a ha
    rcases (hmem a).1 ha with rfl | ha
    · exact ⟨r, hrec, rfl⟩
    · exact howned a ha

/-- **Owning no longer** an attribute type, where nothing that is held relies on it -/
theorem Sound.disown_step {r : ImplicitOwnership} (h : s.Sound first n) (he : s.Editable t d)
    (hrec : s.schema.HasRecord r) (hused : ∀ q x o a bo ba, s.Edge q x o a → s.graph.bare? o = some bo →
      s.graph.bare? a = some ba → t ∈ s.schema.supertypes bo.type → r.owned ∈ s.schema.supertypes ba.type →
        (s.schema.ownershipWithout (some (t, r.owned)) bo.type ba.type).isSome) : SchemaStep first n 0 NoneLost s
      { s with schema := s.schema.redefine t { d with
        plays := d.plays.erase r.ownerRole, owns := d.owns.erase r.owned } } := by
  obtain ⟨hrel, hown, howned⟩ := he.about_records h.recorded
  obtain ⟨e, hback⟩ := h.recorded.backed r hrec
  have hsame : ∀ {q x}, s.schema.HasRecord q → q.Made x → r.Made x → q = r :=
    fun hq hx hx' => h.recorded.made_unique h.coherent.indexed hq hrec hx hx'
  have hmem : ∀ x, x ∈ d.owns.erase r.owned ↔ x ≠ r.owned ∧ x ∈ d.owns := by
    intro x
    rw [ExtTreeMap.mem_erase, ne_eq, compare_iff]
  refine h.redefine_step he rfl rfl rfl ((h.coherent.refs t d he.1).fewer
    (fun x hx => (mem_set_erase.1 hx).2) (fun _ => id) fun x hx => ((hmem x).1 hx).2) hrel ?_ ?_ ?_ ?_
  · intro q hq
    rw [mem_set_erase, hmem, hown q hq]
    refine and_congr_left fun _ => not_congr ⟨fun hr => ?_, fun ho => ?_⟩
    · rw [hsame hq (Or.inr (Or.inl rfl)) (Or.inr (Or.inl hr))]
    · rw [Schema.HasRecord, ho] at hq
      rw [Option.some.inj (hq.symm.trans hrec)]
  · intro q hq
    rw [mem_set_erase]
    apply and_iff_right
    intro hr
    obtain rfl := hsame hq (Or.inr (Or.inr rfl)) (Or.inr (Or.inl hr))
    exact hback.owner_ne_value hr.symm
  · exact fun a ha => howned a ((hmem a).1 ha).2
  · refine ⟨fun h₁ h₂ => absurd h₁ h₂, fun hn => absurd rfl hn, fun p hp hn => absurd hp hn, ?_,
      fun _ hx hn => absurd hx hn, ?_⟩
    · intro x hx hn y b p c hb hu hp _ _
      obtain rfl : x = r.ownerRole := by
        by_contra hxr
        exact hn (mem_set_erase.2 ⟨hxr, hx⟩)
      exact absurd hp (h.not_plays_record hrec (Or.inl rfl) hb hu)
    · intro a ha hn
      obtain rfl : a = r.owned := by
        by_contra har
        exact hn ((hmem a).2 ⟨har, ha⟩)
      exact ⟨fun c hc hne => (hmem c).2 ⟨hne, hc⟩, hused⟩

/-- **Another supertype** -/
theorem Sound.reparent_step {p : TypeId} {old : Option TypeId} (h : s.Sound first n)
    (hm : s.schema.reparent t p = .ok (old, schema')) (hc : schema'.Coherent) (hr : schema'.Recorded)
    (hconf : ({ s with schema := schema' } : State).checkConformance t = .ok ()) :
    SchemaStep first n 0 NoneLost s { s with schema := schema' } := by
  have hget := Schema.get?_reparent hm
  obtain ⟨-, -, -, -, htr⟩ := Schema.tables_reparent hm
  refine ⟨h.reparent hm hc hr hconf, rfl, ?_, ?_, fun _ => False.elim⟩
  · intro id b _ _
    show schema'.implicitForRelation? b.type = _
    rw [Schema.implicitForRelation?, htr]
    rfl
  · rintro id b - - ⟨e, hb⟩
    exact ⟨e, (hget b.type).trans hb⟩

/-- the relation type that goes with an attribute type -/
def RecordedBy (s : State) (t x : TypeId) : Prop := ∃ q, s.schema.implicitForOwned? t = some q ∧ x = q.relation

/-- **An element less** -/
theorem Sound.without_step (h : s.Sound first n) (hw : s.schema.Without schema' t) (hc : schema'.Coherent)
    (hr : schema'.Recorded) (hleaf : ∀ x, s.schema.directSupertype? x ≠ some t)
    (hcount : ∀ id b, s.graph.bare? id = some b → b.type ≠ t)
    (hfilled : ∀ d, s.schema.get? t = some d → d.kind = .role → s.filledRole t = none) :
    SchemaStep first n 0 (s.RecordedBy t) s { s with schema := schema' } := by
  refine ⟨h.without hw hc hr hleaf hcount hfilled, rfl, ?_, ?_, ?_⟩
  · intro id b _ hlost
    apply Option.ext
    intro q
    rw [hw.byRelation]
    refine and_iff_left_of_imp fun hq ho => hlost ?_
    obtain ⟨hrec, hrel⟩ := (h.recorded.byRelation _ q).1 hq
    exact ⟨q, ho ▸ hrec, hrel.symm⟩
  · rintro id b hb hlost ⟨e, he⟩
    have hx : ¬ s.schema.Gone t b.type := fun hx => hlost (gone_of_instance h hcount hb hx).2
    exact ⟨_, hw.get?.2 ⟨hx, e, he, rfl⟩⟩
  · rintro x ⟨q, hq, rfl⟩
    refine ⟨hw.gone _ (Or.inr ⟨q, hq, Or.inl rfl⟩), Option.eq_none_iff_forall_ne_some.2 fun q' hq' => ?_⟩
    obtain ⟨hq', ho⟩ := (hw.byRelation _ q').1 hq'
    obtain ⟨hrec, rfl⟩ := h.recorded.implicitForOwned?.1 hq
    have := (h.recorded.byRelation q.relation q).2 ⟨hrec, rfl⟩
    exact ho (Option.some.inj (hq'.symm.trans this) ▸ rfl)

/-! ## Edits of the graph -/

/-- no ownership is given up -/
abbrev NoneGone : ThingId → ThingId → Prop := fun _ _ => False

theorem GraphStep.refl (h : s.Sound first n) : GraphStep first n 0 NoneGone s s :=
  ⟨h, rfl, fun _ _ hb => Or.inl hb, fun _ _ _ _ he _ => he⟩

theorem GraphStep.weaken {k : Nat} {gone gone' : ThingId → ThingId → Prop} (h : GraphStep first n k gone s s')
    (hg : ∀ o a, gone o a → gone' o a) : GraphStep first n k gone' s s' :=
  ⟨h.sound, h.schema, h.types, fun q r o a he hn => h.edges q r o a he fun hg' => hn (hg o a hg')⟩

theorem GraphStep.trans {s'' : State} {gone : ThingId → ThingId → Prop} (h : GraphStep first n 0 gone s s')
    (h' : GraphStep first n 0 gone s' s'') : GraphStep first n 0 gone s s'' := by
  refine ⟨h'.sound, h'.schema.trans h.schema, fun id b hb => ?_, fun q r o a he hn => ?_⟩
  · rcases h'.types id b hb with hb | ⟨d, hd⟩
    · exact h.types id b hb
    · exact Or.inr ⟨d, h.schema ▸ hd⟩
  · exact h'.edges q r o a (h.edges q r o a he hn) hn

/-- a graph in which ownerships have their relations and their ends -/
theorem Edge.of_graph {q : ImplicitOwnership} {r o a : ThingId} (he : s.Edge q r o a)
    (hbare : graph'.bare? r = s.graph.bare? r) (hplays : ∀ role p, s.graph.Plays r role p → graph'.Plays r role p) :
    ({ s with graph := graph' } : State).Edge q r o a := by
  obtain ⟨b, hb, hq⟩ := he.relation
  exact ⟨⟨b, hbare.trans hb, hq⟩, hplays _ _ he.owner, hplays _ _ he.held⟩

/-- **An instance more** -/
theorem Sound.store_step {id : ThingId} {b : Thing} {new : TypeId → ThingId → Prop} (h : s.Sound first n)
    (hgr : s.graph.Grown graph' id b new) (hs : ({ s with graph := graph' } : State).Sound first (n + 1))
    (hd : s.schema.get? b.type = some d) : GraphStep first n 1 NoneGone s { s with graph := graph' } := by
  refine ⟨hs, rfl, fun x c hx => ?_, fun q r o a he _ => he.of_graph ?_ fun ro p hp => (hgr.plays r ro p).2 (Or.inl hp)⟩
  · rcases hgr.cases hx with ⟨-, rfl⟩ | ⟨-, hx⟩
    · exact Or.inr ⟨d, hd⟩
    · exact Or.inl hx
  · rw [hgr.bare, if_neg]
    rintro rfl
    exact hgr.fresh (he.stored h).1

/-- the ownerships that are left without an instance at no end of one -/
theorem Sound.edge_erase {id : ThingId} {th : Thing} (h : s.Sound first n) (hrm : s.graph.remove id = .ok (th, graph'))
    (hend : ∀ q r o a, s.Edge q r o a → o ≠ id ∧ a ≠ id) (q : ImplicitOwnership) (r o a : ThingId) :
    ({ s with graph := graph' } : State).Edge q r o a ↔ s.Edge q r o a ∧ r ≠ id := by
  obtain ⟨-, -, hbare, hplays⟩ := Graph.remove_spec h.indexed h.closed hrm
  constructor
  · rintro ⟨⟨b, hb, hq⟩, ho, ha⟩
    replace hb := (hbare r).symm.trans hb
    split at hb
    · simp at hb
    · exact ⟨⟨⟨b, hb, hq⟩, ((hplays _ _ _).1 ho).1, ((hplays _ _ _).1 ha).1⟩, ‹_›⟩
  · rintro ⟨he, hr⟩
    obtain ⟨ho, ha⟩ := hend q r o a he
    obtain ⟨b, hb, hq⟩ := he.relation
    exact ⟨⟨b, (hbare r).trans (by rw [if_neg hr, hb]), hq⟩, (hplays _ _ _).2 ⟨he.owner, hr, ho⟩,
      (hplays _ _ _).2 ⟨he.held, hr, ha⟩⟩

/-- **An instance less** -/
theorem Sound.erase_step {id : ThingId} {th : Thing} (h : s.Sound first n) (hrm : s.graph.remove id = .ok (th, graph'))
    (hend : ∀ q r o a, s.Edge q r o a → o ≠ id ∧ a ≠ id) :
    GraphStep first n 0 (fun o a => ∃ q, s.Edge q id o a) s { s with graph := graph' } := by
  obtain ⟨-, -, hbare, -⟩ := Graph.remove_spec h.indexed h.closed hrm
  refine ⟨h.erase hrm hend, rfl, fun x c hx => ?_, fun q r o a he hn => ?_⟩
  · replace hx := (hbare x).symm.trans hx
    split at hx
    · simp at hx
    · exact Or.inl hx
  · refine (h.edge_erase hrm hend q r o a).2 ⟨he, ?_⟩
    rintro rfl
    exact hn ⟨q, he⟩

end State

end ConceptGraph
