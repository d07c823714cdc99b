/-
What edits of the schema do to the instances, which stay as they are.

Where a schema declares at least what it did (`Extends`), no instance can be in the way: `Sound.extend`, and from it
`Sound.insert`, `Sound.withRecord` and `Sound.relabel`. Where one definition loses something, it is enough that no
instance relies on it (`Spared`, `Sound.redefine`).
-/
import ConceptGraph.Proofs.Schema.RecordCreation
import ConceptGraph.Proofs.Schema.RecordDeletion
import ConceptGraph.Proofs.Schema.RecordRenaming
import ConceptGraph.Proofs.State.Soundness

namespace ConceptGraph

open Std

namespace Schema

variable {s s' : Schema} {t a x : TypeId} {d d' : TypeDef} {old : TypeId → Prop}

/-- data types agree as soon as each element agrees with those above it -/
theorem Indexed.agreeing (hs : s.Indexed) (h : ∀ t a v w, a ∈ s.supertypes t → s.declaredDataType? t = some v →
    s.declaredDataType? a = some w → v = w) : s.Agreeing := by
  intro t a b v w ha hb hv hw
  rcases hs.supertypes_linear ha hb with hab | hba
  · exact (h b a w v hab hw hv).symm
  · exact h a b v w hba hv hw

/-! ## More declarations -/

/-- everything that the first definition declares, the second one does as well -/
structure DeclaresAll (d d' : TypeDef) : Prop where
  kind : d'.kind = d.kind
  isAbstract : d'.isAbstract → d.isAbstract
  plays : ∀ x ∈ d.plays, x ∈ d'.plays
  relates : ∀ x, d.relatesRole x → d'.relatesRole x
  owns : ∀ x ∈ d.owns, x ∈ d'.owns
  dataType : d'.dataType? = d.dataType?
  regex : d'.regex? = d.regex?

theorem DeclaresAll.refl (d : TypeDef) : DeclaresAll d d :=
  ⟨rfl, id, fun _ => id, fun _ => id, fun _ => id, rfl, rfl⟩

/-- a schema that declares at least what another one does, with nothing moved; `old` are the identifiers in use -/
structure Extends (old : TypeId → Prop) (s s' : Schema) : Prop where
  defs : ∀ t d, s.get? t = some d → ∃ d', s'.get? t = some d' ∧ DeclaresAll d d'
  undefined : ∀ t, old t → s.get? t = none → s'.get? t = none
  parents : ∀ t d, s.get? t = some d → s'.directSupertype? t = s.directSupertype? t
  byRelation : ∀ t, old t → s'.implicitForRelation? t = s.implicitForRelation? t

namespace Extends

variable (h : s.Extends old s') (hs : s.Indexed) (hs' : s'.Indexed)

include h hs hs'

theorem supertypes (hd : s.get? t = some d) : s'.supertypes t = s.supertypes t := by
  refine hs.supertypes_congr hs' ?_ ⟨d, hd⟩
  intro a ha
  obtain ⟨-, e, -, he, -⟩ := hs.defined_of_mem ha
  obtain ⟨e', he', -⟩ := h.defs a e he
  exact ⟨⟨e', he'⟩, h.parents a e he⟩

/-- what is above an element is what was above it -/
theorem mem_supertypes (ha : a ∈ s.supertypes t) : a ∈ s'.supertypes t := by
  obtain ⟨d, -, hd, -⟩ := hs.defined_of_mem ha
  rwa [h.supertypes hs hs' hd]

omit hs' in
theorem declared (ha : a ∈ s.supertypes t) :
    s'.declaredDataType? a = s.declaredDataType? a ∧ s'.declaredRegex? a = s.declaredRegex? a := by
  obtain ⟨-, e, -, he, -⟩ := hs.defined_of_mem ha
  obtain ⟨e', he', hle⟩ := h.defs a e he
  simp only [declaredDataType?, declaredRegex?, he, he', Option.bind_some]
  exact ⟨hle.dataType, hle.regex⟩

theorem playsRole {role : TypeId} (hp : s.playsRole t role) : s'.playsRole t role := by
  obtain ⟨a, ha, e, he, hr⟩ := playsRole_iff.1 hp
  obtain ⟨e', he', hle⟩ := h.defs a e he
  exact playsRole_iff.2 ⟨a, h.mem_supertypes hs hs' ha, e', he', hle.plays role hr⟩

theorem relatesRole {role : TypeId} (hp : s.relatesRole t role) : s'.relatesRole t role := by
  obtain ⟨a, ha, e, he, hr⟩ := relatesRole_iff.1 hp
  obtain ⟨e', he', hle⟩ := h.defs a e he
  exact relatesRole_iff.2 ⟨a, h.mem_supertypes hs hs' ha, e', he', hle.relates role hr⟩

theorem ownership?_isSome (ho : (s.ownership? t a).isSome) : (s'.ownership? t a).isSome := by
  obtain ⟨b, hb, c, hc, e, he, hr⟩ := Schema.ownership?_isSome.1 ho
  obtain ⟨e', he', hle⟩ := h.defs b e he
  exact Schema.ownership?_isSome.2
    ⟨b, h.mem_supertypes hs hs' hb, c, h.mem_supertypes hs hs' hc, e', he', hle.owns c hr⟩

theorem dataType? (ha : s.Agreeing) (ha' : s'.Agreeing) {v : DataType} (hv : s.dataType? t = some v) :
    s'.dataType? t = some v := by
  obtain ⟨b, hb, hbv⟩ := ha.dataType?_eq_some.1 hv
  exact ha'.dataType?_eq_some.2 ⟨b, h.mem_supertypes hs hs' hb, by rw [(h.declared hs hb).1, hbv]⟩

theorem mem_patterns {p : Pattern} (hd : s.get? t = some d) (hp : (a, p) ∈ s'.patterns t) : (a, p) ∈ s.patterns t := by
  obtain ⟨ha, hreg⟩ := Schema.mem_patterns.1 hp
  rw [h.supertypes hs hs' hd] at ha
  rw [(h.declared hs ha).2] at hreg
  exact Schema.mem_patterns.2 ⟨ha, hreg⟩

/-- elements that are new must agree with what they are put under -/
theorem agreeing (ha : s.Agreeing) (hnew : ∀ t a v, s.get? t = none → s'.declaredDataType? t = some v →
    a ∈ s'.supertypes t → a ≠ t → s'.declaredDataType? a = none) : s'.Agreeing := by
  apply hs'.agreeing
  intro t a v w hat hv hw
  cases hd : s.get? t with
  | none =>
    by_cases hne : a = t
    · rw [hne, hv] at hw
      exact Option.some.inj hw
    · rw [hnew t a v hd hv hat hne] at hw
      simp at hw
  | some d =>
    rw [h.supertypes hs hs' hd] at hat
    rw [(h.declared hs (hs.self_mem_supertypes hd)).1] at hv
    rw [(h.declared hs hat).1] at hw
    exact ha t t a v w (hs.self_mem_supertypes hd) hat hv hw

end Extends

end Schema

namespace State

variable {s : State} {schema' : Schema} {first : UInt64} {n m : Nat}

section Extend

variable {id : ThingId} {b : Thing} (h : s.Sound first n) (hx : s.schema.Extends (fun t => Issued first n t.raw) schema')

include h hx

theorem Sound.defined_before {d : TypeDef} (hb : s.graph.bare? id = some b) (hd : schema'.get? b.type = some d) :
    ∃ d₀, s.schema.get? b.type = some d₀ ∧ Schema.DeclaresAll d₀ d := by
  cases hd₀ : s.schema.get? b.type with
  | none =>
    rw [hx.undefined _ (h.issuedThings id b hb).2 hd₀] at hd
    simp at hd
  | some d₀ =>
    obtain ⟨d', hd', hle⟩ := hx.defs _ _ hd₀
    exact ⟨d₀, rfl, Option.some.inj (hd.symm.trans hd') ▸ hle⟩

theorem Sound.user_before (hb : s.graph.bare? id = some b) (hu : ({ s with schema := schema' } : State).UserRelation b) :
    s.UserRelation b := by
  obtain ⟨⟨d, hd⟩, hq⟩ := hu
  obtain ⟨d₀, hd₀, -⟩ := h.defined_before hx hb hd
  exact ⟨⟨d₀, hd₀⟩, (hx.byRelation _ (h.issuedThings id b hb).2).symm.trans hq⟩

/-- each instance is as its type wants it when the schema permits more -/
theorem Instances.extend (hs' : schema'.Indexed) (ha : schema'.Agreeing) :
    ({ s with schema := schema' } : State).Instances := by
  have hs := h.coherent.indexed
  refine ⟨?_, ?_, ?_, ?_, ?_, ?_, ?_⟩
  · intro id b hb
    rcases h.instances.typed id b hb with ⟨d, hd, hk⟩ | ⟨hn, hrel⟩
    · obtain ⟨d', hd', hle⟩ := hx.defs _ _ hd
      exact Or.inl ⟨d', hd', hle.kind.trans hk⟩
    · exact Or.inr ⟨hx.undefined _ (h.issuedThings id b hb).2 hn, hrel⟩
  · intro id b d hb hd hab
    obtain ⟨d₀, hd₀, hle⟩ := h.defined_before hx hb hd
    exact h.instances.concrete id b d₀ hb hd₀ (hle.isAbstract hab)
  · intro id b v hb hv
    exact hx.dataType? hs hs' h.agreeing ha (h.instances.valued id b v hb hv)
  · intro id b v text hb hv htext t p hp
    obtain ⟨t₀, ht₀, -⟩ := Schema.dataType?_sound (h.instances.valued id b v hb hv)
    obtain ⟨d, -, hd, -⟩ := hs.defined_of_mem ht₀
    exact h.instances.matched id b v text hb hv htext t p (hx.mem_patterns hs hs' hd hp)
  · intro r b role p hb hu hp
    exact hx.relatesRole hs hs' (h.instances.related r b role p hb (h.user_before hx hb hu) hp)
  · intro r b role p c hb hu hp hcp
    exact hx.playsRole hs hs' (h.instances.played r b role p c hb (h.user_before hx hb hu) hp hcp)
  · intro r b q hb hq
    rw [hx.byRelation _ (h.issuedThings r b hb).2] at hq
    obtain ⟨o, a, ⟨bo, ba, hbo, hba, hown⟩, hplays⟩ := h.instances.edges r b q hb hq
    exact ⟨o, a, ⟨bo, ba, hbo, hba, hx.ownership?_isSome hs hs' hown⟩, hplays⟩

/-- **More declarations.** No instance is in the way of a schema that permits more. -/
theorem Sound.extend (hnm : n ≤ m) (hc : schema'.Coherent) (hr : schema'.Recorded) (ha : schema'.Agreeing)
    (hi : ∀ t d, schema'.get? t = some d → Issued first m t.raw) :
    ({ s with schema := schema' } : State).Sound first m where
  coherent := hc
  recorded := hr
  agreeing := ha
  indexed := h.indexed
  closed := h.closed
  instances := .extend h hx hc.indexed ha
  issuedTypes := hi
  issuedThings id b hb := ⟨(h.issuedThings id b hb).1.mono hnm, (h.issuedThings id b hb).2.mono hnm⟩

end Extend

/-- the next identifier is not in use -/
theorem Sound.get?_next (h : s.Sound first n) {t : TypeId} {k : Nat} (ht : t.raw = first + UInt64.ofNat k) (hk : k < 2 ^ 64)
    (hnk : n ≤ k) : s.schema.get? t = none := by
  apply Option.eq_none_iff_forall_ne_some.2
  intro d hd
  have := h.issuedTypes t d hd
  rw [ht, issued_offset hk] at this
  omega

/-- a new element is in nobody's way -/
theorem Sound.insert_extends (h : s.Sound first n) {t p : TypeId} {d : TypeDef}
    (hi : s.schema.insert t d p = .ok schema') (ht : t.raw = first + UInt64.ofNat n) (hn : n < 2 ^ 64) :
    s.schema.Extends (fun t => Issued first n t.raw) schema' := by
  have hnone := h.get?_next ht hn (Nat.le_refl n)
  have hget := Schema.get?_insert hi
  have hpar := Schema.directSupertype?_insert hi h.coherent.indexed hnone
  obtain ⟨-, -, htr⟩ := Schema.tables_insert hi
  have hne : ∀ {x e}, s.schema.get? x = some e → x ≠ t := by
    rintro x e he rfl
    simp [hnone] at he
  refine ⟨?_, ?_, ?_, ?_⟩
  · intro x e he
    exact ⟨e, by rw [hget, if_neg (hne he), he], .refl e⟩
  · intro x hx he
    have hxt : x ≠ t := by
      rintro rfl
      rw [ht, issued_offset hn] at hx
      omega
    rw [hget, if_neg hxt, he]
  · intro x e he
    rw [hpar, if_neg (hne he)]
  · intro x _
    rw [Schema.implicitForRelation?, htr]
    rfl

/-- **A new element.** -/
theorem Sound.insert (h : s.Sound first n) {t p : TypeId} {d : TypeDef} (hi : s.schema.insert t d p = .ok schema')
    (ht : t.raw = first + UInt64.ofNat n) (hn : n < 2 ^ 64) (hp : p = s.schema.metaTypes.ofKind d.kind)
    (hplain : ¬ d.isImplicit) (hun : Label.scopeMark ∉ d.label.toList) (hno : ∀ x, ¬ d.RefersTo x)
    (hfor : d.implicitFor? = none) : ({ s with schema := schema' } : State).Sound first (n + 1) := by
  have hnone := h.get?_next ht hn (Nat.le_refl n)
  have hmp : s.schema.isMeta p := hp ▸ Schema.Coherent.ofKind_isMeta s.schema d.kind
  have hc : schema'.Coherent := Schema.insert_coherent h.coherent hi hnone (Schema.refsDefined_of_no_refs hno)
    (hp ▸ h.coherent.ofKind_ne_thingRoot _) (hp ▸ h.coherent.ofKind_hasKind _)
  have hr : schema'.Recorded := Schema.insert_recorded h.coherent h.recorded hi hnone hplain hun hno hfor
    fun r hr hm => h.recorded.made_not_meta h.coherent hr hm hmp
  have hget := Schema.get?_insert hi
  have hpar := Schema.directSupertype?_insert hi h.coherent.indexed hnone
  obtain ⟨hmeta, -, -⟩ := Schema.tables_insert hi
  have hx := h.insert_extends hi ht hn
  refine h.extend hx (Nat.le_succ n) hc hr (hx.agreeing h.coherent.indexed hc.indexed h.agreeing ?_) ?_
  · intro x a v hx hv ha hne'
    have hxt : x = t := by
      by_contra hxt
      obtain ⟨e, he, -⟩ := Option.bind_eq_some_iff.1 hv
      rw [hget, if_neg hxt, hx] at he
      simp at he
    rcases hc.indexed.mem_supertypes_iff.1 ha with ⟨he, -⟩ | ⟨q, hq, haq⟩
    · exact absurd he hne'
    · rw [hpar, if_pos hxt] at hq
      obtain rfl := Option.some.inj hq
      have hma := hc.isMeta_of_above ((Schema.isMeta_congr hmeta).2 hmp) haq
      obtain ⟨e, he⟩ := hc.root_defined hma
      rw [Schema.declaredDataType?, he, Option.bind_some, (hc.root_bare hma he).dataType?_eq]
  · intro x e he
    rw [hget] at he
    split at he
    · rename_i hxt
      rw [hxt, ht, issued_offset hn]
      exact Nat.lt_succ_self n
    · exact (h.issuedTypes x e he).mono (Nat.le_succ n)

/-- a new record is in nobody's way -/
theorem Sound.record_extends (h : s.Sound first n) {r : ImplicitOwnership} {d : TypeDef}
    (hw : s.schema.WithRecord schema' r d) (hd : s.schema.get? r.owned = some d)
    (hmade : ∀ x, r.Made x → ¬ Issued first n x.raw) : s.schema.Extends (fun t => Issued first n t.raw) schema' := by
  have hnot : ∀ {x e}, s.schema.get? x = some e → ¬ r.Made x := fun he hm => hmade _ hm (h.issuedTypes _ _ he)
  refine ⟨?_, ?_, ?_, ?_⟩
  · intro x e he
    by_cases hxo : x = r.owned
    · subst hxo
      obtain rfl := Option.some.inj (hd.symm.trans he)
      exact ⟨_, hw.owned, ⟨rfl, id, fun x hx => mem_set_insert.2 (Or.inr hx), fun _ => id, fun _ => id, rfl, rfl⟩⟩
    · exact ⟨e, by rw [hw.other x hxo (hnot he), he], .refl e⟩
  · intro x hx he
    have hxo : x ≠ r.owned := by
      rintro rfl
      simp [hd] at he
    rw [hw.other x hxo fun hm => hmade x hm hx, he]
  · exact fun x e he => hw.otherParent x (hnot he)
  · intro x hx
    rw [hw.byRelation, if_neg]
    rintro rfl
    exact hmade _ (Or.inl rfl) hx

/-- **A first declaration.** -/
theorem Sound.withRecord (h : s.Sound first n) {r : ImplicitOwnership} {d : TypeDef} (hw : s.schema.WithRecord schema' r d)
    (hc : schema'.Coherent) (hr : schema'.Recorded) (hd : s.schema.get? r.owned = some d)
    (hmade : ∀ x, r.Made x → ¬ Issued first n x.raw ∧ Issued first m x.raw) (hnm : n ≤ m) :
    ({ s with schema := schema' } : State).Sound first m := by
  have hx := h.record_extends hw hd fun x hm => (hmade x hm).1
  refine h.extend hx hnm hc hr (hx.agreeing h.coherent.indexed hc.indexed h.agreeing ?_) ?_
  · intro x a v hx hv
    obtain ⟨e, he, hev⟩ := Option.bind_eq_some_iff.1 hv
    by_cases hm : r.Made x
    · rcases hm with rfl | rfl | rfl
      · rw [← Option.some.inj (hw.relation.symm.trans he)] at hev
        simp [ImplicitOwnership.relationDef, TypeDef.dataType?, TypeDef.blank] at hev
      · rw [← Option.some.inj (hw.ownerRole.symm.trans he)] at hev
        simp [TypeDef.dataType?, TypeDef.blank] at hev
      · rw [← Option.some.inj (hw.valueRole.symm.trans he)] at hev
        simp [TypeDef.dataType?, TypeDef.blank] at hev
    · have hxo : x ≠ r.owned := by
        rintro rfl
        simp [hd] at hx
      rw [hw.other x hxo hm, hx] at he
      simp at he
  · intro x e he
    by_cases hm : r.Made x
    · exact (hmade x hm).2
    · by_cases hxo : x = r.owned
      · exact (h.issuedTypes x d (hxo ▸ hd)).mono hnm
      · rw [hw.other x hxo hm] at he
        exact (h.issuedTypes x e he).mono hnm

/-- labels are in nobody's way -/
theorem extends_of_sameButLabels {old : TypeId → Prop} (hx : s.schema.SameButLabels schema') :
    s.schema.Extends old schema' := by
  refine ⟨?_, ?_, ?_, ?_⟩
  · intro x e he
    obtain ⟨e', he', heq, -⟩ := hx.get? he
    refine ⟨e', he', ?_⟩
    rw [heq]
    exact ⟨rfl, id, fun _ => id, fun _ => id, fun _ => id, rfl, rfl⟩
  · intro x _ he
    apply Option.eq_none_iff_forall_ne_some.2
    intro e' he'
    obtain ⟨e, he'', -⟩ := hx.defs x e' he'
    simp [he] at he''
  · exact fun x _ _ => hx.parents x
  · intro x _
    rw [Schema.implicitForRelation?, hx.byRelation]
    rfl

/-- **Other labels.** -/
theorem Sound.relabel (h : s.Sound first n) (hx : s.schema.SameButLabels schema') (hc : schema'.Coherent)
    (hr : schema'.Recorded) : ({ s with schema := schema' } : State).Sound first n := by
  have hext : s.schema.Extends (fun t => Issued first n t.raw) schema' := extends_of_sameButLabels hx
  refine h.extend hext (Nat.le_refl n) hc hr (hext.agreeing h.coherent.indexed hc.indexed h.agreeing ?_) ?_
  · intro x a v hxn hv
    obtain ⟨e', he', -⟩ := Option.bind_eq_some_iff.1 hv
    obtain ⟨e, he, -⟩ := hx.defs x e' he'
    simp [hxn] at he
  · intro x e' he'
    obtain ⟨e, he, -⟩ := hx.defs x e' he'
    exact h.issuedTypes x e he

/-! ## A definition replaced -/

/-- the roles of a record are filled in no relation of a user -/
theorem Sound.not_plays_record (h : s.Sound first n) {r p : ThingId} {b : Thing} {q : ImplicitOwnership} {role : TypeId}
    (hq : s.schema.HasRecord q) (hrole : role = q.ownerRole ∨ role = q.valueRole) (hb : s.graph.bare? r = some b)
    (hu : s.UserRelation b) : ¬ s.graph.Plays r role p := by
  intro hp
  obtain ⟨a, ha, hdecl⟩ := Schema.relatesRole_iff.1 (h.instances.related r b role p hb hu hp)
  obtain ⟨d, hback⟩ := h.recorded.backed q hq
  obtain rfl := h.recorded.relates q a role hq hrole hdecl
  have hbt := h.coherent.indexed.eq_of_leaf (fun y => hback.leaf y _ (Or.inl rfl)) ha
  have := (h.recorded.byRelation b.type q).2 ⟨hq, hbt.symm⟩
  rw [hu.2] at this
  simp at this

/-- what the new definition of `t` no longer says, no instance relies on; of what it owns, it loses one at a time -/
structure Spared (s : State) (t : TypeId) (d d' : TypeDef) : Prop where
  isAbstract : d'.isAbstract → ¬ d.isAbstract → ∀ id b, s.graph.bare? id = some b → b.type ≠ t
  dataType : d'.dataType? ≠ d.dataType? → (∀ id b, s.graph.bare? id = some b → t ∉ s.schema.supertypes b.type) ∧
    ∀ x v w, x ∈ s.schema.supertypes t ∨ t ∈ s.schema.supertypes x → x ≠ t → d'.dataType? = some v →
      s.schema.declaredDataType? x = some w → v = w
  regex : ∀ p, d'.regex? = some p → d.regex? ≠ some p → ∀ id b v text, s.graph.bare? id = some b →
    b.value? = some v → v.string? = some text → t ∈ s.schema.supertypes b.type → p.isMatch text
  plays : ∀ role ∈ d.plays, role ∉ d'.plays → ∀ r b p c, s.graph.bare? r = some b → s.UserRelation b →
    s.graph.Plays r role p → s.graph.bare? p = some c → t ∈ s.schema.supertypes c.type →
      s.schema.playsWithout (some (t, role)) c.type role
  relates : ∀ role, d.relatesRole role → ¬ d'.relatesRole role → ∀ r b p, s.graph.bare? r = some b →
    s.graph.Plays r role p → t ∈ s.schema.supertypes b.type → s.schema.relatesWithout (some (t, role)) b.type role
  owns : ∀ a ∈ d.owns, a ∉ d'.owns → (∀ c ∈ d.owns, c ≠ a → c ∈ d'.owns) ∧ ∀ q r o h bo bh, s.Edge q r o h →
    s.graph.bare? o = some bo → s.graph.bare? h = some bh → t ∈ s.schema.supertypes bo.type →
      a ∈ s.schema.supertypes bh.type → (s.schema.ownershipWithout (some (t, a)) bo.type bh.type).isSome

/-- a definition that declares more is in nobody's way -/
theorem Spared.of_declaresAll {t : TypeId} {d d' : TypeDef} (h : Schema.DeclaresAll d d') : s.Spared t d d' where
  isAbstract h' h'' := absurd (h.isAbstract h') h''
  dataType h' := absurd h.dataType h'
  regex _ hp hn := absurd (h.regex ▸ hp) hn
  plays role hr hn := absurd (h.plays role hr) hn
  relates role hr hn := absurd (h.relates role hr) hn
  owns a ha hn := absurd (h.owns a ha) hn

section Redefine

variable {t : TypeId} {d d' : TypeDef} (hs : s.schema.Indexed) (hd : s.schema.get? t = some d)
  (hl : d'.label = d.label) (hk : d'.kind = d.kind)

include hs hd hl hk

theorem supertypes_redefine (x : TypeId) : (s.schema.redefine t d').supertypes x = s.schema.supertypes x := by
  have hs' := Schema.redefine_indexed hs hd hl hk
  have hget := Schema.get?_redefine s.schema t d'
  cases hx : s.schema.get? x with
  | none =>
    have hxt : x ≠ t := by
      rintro rfl
      simp [hd] at hx
    rw [hs.supertypes_of_none hx, hs'.supertypes_of_none (by rw [hget, if_neg hxt, hx])]
  | some e =>
    refine hs.supertypes_congr hs' ?_ ⟨e, hx⟩
    intro a ha
    obtain ⟨-, f, -, hf, -⟩ := hs.defined_of_mem ha
    refine ⟨?_, rfl⟩
    rw [hget]
    split
    · exact ⟨d', rfl⟩
    · exact ⟨f, hf⟩

end Redefine

theorem defined_before_redefine {t x : TypeId} {d d' e' : TypeDef} (hd : s.schema.get? t = some d)
    (he' : (s.schema.redefine t d').get? x = some e') : ∃ e, s.schema.get? x = some e := by
  rw [Schema.get?_redefine] at he'
  split at he'
  · rename_i hx
    exact ⟨d, hx ▸ hd⟩
  · exact ⟨e', he'⟩

theorem declaredDataType?_redefine (schema : Schema) (t : TypeId) (d' : TypeDef) (x : TypeId) :
    (schema.redefine t d').declaredDataType? x = if x = t then d'.dataType? else schema.declaredDataType? x := by
  rw [Schema.declaredDataType?, Schema.get?_redefine]
  split <;> rfl

theorem declaredRegex?_redefine (schema : Schema) (t : TypeId) (d' : TypeDef) (x : TypeId) :
    (schema.redefine t d').declaredRegex? x = if x = t then d'.regex? else schema.declaredRegex? x := by
  rw [Schema.declaredRegex?, Schema.get?_redefine]
  split <;> rfl

theorem agreeing_redefine (hs : s.schema.Indexed) {t : TypeId} {d d' : TypeDef} (hd : s.schema.get? t = some d)
    (hl : d'.label = d.label) (hk : d'.kind = d.kind) (ha : s.schema.Agreeing) (hsp : s.Spared t d d') :
    (s.schema.redefine t d').Agreeing := by
  have hdt : s.schema.declaredDataType? t = d.dataType? := by rw [Schema.declaredDataType?, hd, Option.bind_some]
  apply (Schema.redefine_indexed hs hd hl hk).agreeing
  intro x a v w hax hv hw
  rw [supertypes_redefine hs hd hl hk] at hax
  rw [declaredDataType?_redefine] at hv hw
  obtain ⟨e, -, he, -⟩ := hs.defined_of_mem hax
  have hself := hs.self_mem_supertypes he
  by_cases hsame : d'.dataType? = d.dataType?
  · rw [hsame, ← hdt] at hv hw
    refine ha x x a v w hself hax ?_ ?_
    · split at hv
      · rename_i hx
        rwa [hx]
      · exact hv
    · split at hw
      · rename_i hx
        rwa [hx]
      · exact hw
  · obtain ⟨-, hag⟩ := hsp.dataType hsame
    split at hv <;> split at hw
    · exact Option.some.inj (hv.symm.trans hw)
    · rename_i hx hat
      exact hag a v w (Or.inl (hx ▸ hax)) hat hv hw
    · rename_i hx hat
      exact (hag x w v (Or.inr (hat ▸ hax)) hx hw hv).symm
    · exact ha x x a v w hself hax hv hw

/-- what is said by another definition is said still -/
theorem declared_elsewhere {schema : Schema} {t : TypeId} {d' : TypeDef} {x : TypeId} {P : TypeDef → Prop} (hx : x ≠ t)
    (h : ∃ e, schema.get? x = some e ∧ P e) : ∃ e, (schema.redefine t d').get? x = some e ∧ P e := by
  obtain ⟨e, he, hp⟩ := h
  exact ⟨e, by rw [Schema.get?_redefine, if_neg hx, he], hp⟩

/-- what is said above an element is said there still, if something else says it where the new definition does not -/
theorem declared_above (hs : s.schema.Indexed) {t x : TypeId} {d d' : TypeDef} (hd : s.schema.get? t = some d)
    (hl : d'.label = d.label) (hk : d'.kind = d.kind) {P : TypeDef → Prop}
    (h : ∃ y ∈ s.schema.supertypes x, ∃ e, s.schema.get? y = some e ∧ P e)
    (hother : P d → ¬ P d' → t ∈ s.schema.supertypes x →
      ∃ y ∈ s.schema.supertypes x, y ≠ t ∧ ∃ e, s.schema.get? y = some e ∧ P e) :
    ∃ y ∈ (s.schema.redefine t d').supertypes x, ∃ e, (s.schema.redefine t d').get? y = some e ∧ P e := by
  rw [supertypes_redefine hs hd hl hk]
  obtain ⟨y, hy, e, he, hp⟩ := h
  by_cases hyt : y = t
  · subst hyt
    obtain rfl := Option.some.inj (he.symm.trans hd)
    by_cases hkeep : P d'
    · exact ⟨y, hy, d', by rw [Schema.get?_redefine, if_pos rfl], hkeep⟩
    · obtain ⟨z, hz, hne, hdecl⟩ := hother hp hkeep hy
      exact ⟨z, hz, declared_elsewhere hne hdecl⟩
  · exact ⟨y, hy, declared_elsewhere hyt ⟨e, he, hp⟩⟩

section Spared

variable {t : TypeId} {d d' : TypeDef} (h : s.Sound first n) (hd : s.schema.get? t = some d) (hl : d'.label = d.label)
  (hk : d'.kind = d.kind) (hsp : s.Spared t d d')

include h hd hl hk hsp

theorem valued_redefine {id : ThingId} {b : Thing} {v : Value} (hb : s.graph.bare? id = some b) (hv : b.value? = some v) :
    (s.schema.redefine t d').dataType? b.type = some v.dataType := by
  have hag := agreeing_redefine h.coherent.indexed hd hl hk h.agreeing hsp
  obtain ⟨x, hx, hxv⟩ := h.agreeing.dataType?_eq_some.1 (h.instances.valued id b v hb hv)
  refine hag.dataType?_eq_some.2 ⟨x, (supertypes_redefine h.coherent.indexed hd hl hk _).symm ▸ hx, ?_⟩
  rw [declaredDataType?_redefine]
  split
  · rename_i hxt
    rw [hxt, Schema.declaredDataType?, hd, Option.bind_some] at hxv
    rw [← hxv]
    by_contra hne
    exact (hsp.dataType hne).1 id b hb (hxt ▸ hx)
  · exact hxv

theorem matched_redefine {id : ThingId} {b : Thing} {v : Value} {text : String} (hb : s.graph.bare? id = some b)
    (hv : b.value? = some v) (htext : v.string? = some text) {x : TypeId} {p : Pattern}
    (hp : (x, p) ∈ (s.schema.redefine t d').patterns b.type) : p.isMatch text := by
  obtain ⟨hx, hreg⟩ := Schema.mem_patterns.1 hp
  rw [supertypes_redefine h.coherent.indexed hd hl hk] at hx
  rw [declaredRegex?_redefine] at hreg
  have hold : s.schema.declaredRegex? x = some p → p.isMatch text := fun hxp =>
    h.instances.matched id b v text hb hv htext x p (Schema.mem_patterns.2 ⟨hx, hxp⟩)
  split at hreg
  · rename_i hxt
    by_cases hdp : d.regex? = some p
    · exact hold (by rw [Schema.declaredRegex?, hxt, hd]; exact hdp)
    · exact hsp.regex p hreg hdp id b v text hb hv htext (hxt ▸ hx)
  · exact hold hreg

theorem related_redefine {r p : ThingId} {b : Thing} {role : TypeId} (hb : s.graph.bare? r = some b)
    (hu : s.UserRelation b) (hp : s.graph.Plays r role p) : (s.schema.redefine t d').relatesRole b.type role := by
  have hrel := Schema.relatesRole_iff.1 (h.instances.related r b role p hb hu hp)
  refine Schema.relatesRole_iff.2 (declared_above h.coherent.indexed hd hl hk hrel fun hrole hkeep hbt => ?_)
  obtain ⟨y, hy, hne, hdecl⟩ := Schema.relatesWithout_iff.1 (hsp.relates role hrole hkeep r b p hb hp hbt)
  exact ⟨y, hy, fun hyt => hne (by rw [hyt]), hdecl⟩

theorem played_redefine {r p : ThingId} {b c : Thing} {role : TypeId} (hb : s.graph.bare? r = some b)
    (hu : s.UserRelation b) (hp : s.graph.Plays r role p) (hc : s.graph.bare? p = some c) :
    (s.schema.redefine t d').playsRole c.type role := by
  have hplay := Schema.playsRole_iff.1 (h.instances.played r b role p c hb hu hp hc)
  refine Schema.playsRole_iff.2 (declared_above h.coherent.indexed hd hl hk hplay fun hrole hkeep hct => ?_)
  obtain ⟨y, hy, hne, hdecl⟩ := Schema.playsWithout_iff.1 (hsp.plays role hrole hkeep r b p c hb hu hp hc hct)
  exact ⟨y, hy, fun hyt => hne (by rw [hyt]), hdecl⟩

theorem mayHold_redefine {q : ImplicitOwnership} {r o a : ThingId} (hedge : s.Edge q r o a) :
    ({ s with schema := s.schema.redefine t d' } : State).MayHold o a := by
  have hsup := supertypes_redefine h.coherent.indexed hd hl hk
  have hself : (s.schema.redefine t d').get? t = some d' := by rw [Schema.get?_redefine, if_pos rfl]
  obtain ⟨bo, ba, hbo, hba, hown⟩ := hedge.mayHold h.recorded h.instances
  refine ⟨bo, ba, hbo, hba, Schema.ownership?_isSome.2 ?_⟩
  obtain ⟨x, hx, c, hc, e, he, howns⟩ := Schema.ownership?_isSome.1 hown
  by_cases hxt : x = t
  · subst hxt
    obtain rfl := Option.some.inj (he.symm.trans hd)
    by_cases hkeep : c ∈ d'.owns
    · exact ⟨x, (hsup _).symm ▸ hx, c, (hsup _).symm ▸ hc, d', hself, hkeep⟩
    · obtain ⟨hothers, hdecl⟩ := hsp.owns c howns hkeep
      obtain ⟨y, hy, z, hz, hne, f, hf, hfz⟩ :=
        Schema.ownershipWithout_isSome.1 (hdecl q r o a bo ba hedge hbo hba hx hc)
      refine ⟨y, (hsup _).symm ▸ hy, z, (hsup _).symm ▸ hz, ?_⟩
      by_cases hyx : y = x
      · subst hyx
        obtain rfl := Option.some.inj (hf.symm.trans hd)
        exact ⟨d', hself, hothers z hfz fun hzc => hne (by rw [hzc])⟩
      · exact declared_elsewhere hyx ⟨f, hf, hfz⟩
  · exact ⟨x, (hsup _).symm ▸ hx, c, (hsup _).symm ▸ hc, declared_elsewhere hxt ⟨e, he, howns⟩⟩

/-- each instance is as its type wants it when a definition says less about what none of them relies on -/
theorem Instances.redefine : ({ s with schema := s.schema.redefine t d' } : State).Instances := by
  have hget := Schema.get?_redefine s.schema t d'
  have huser : ∀ b, ({ s with schema := s.schema.redefine t d' } : State).UserRelation b → s.UserRelation b := by
    rintro b ⟨⟨e', he'⟩, hq⟩
    exact ⟨defined_before_redefine hd he', hq⟩
  refine ⟨?_, ?_, fun id b v hb hv => valued_redefine h hd hl hk hsp hb hv,
    fun id b v text hb hv htext x p hp => matched_redefine h hd hl hk hsp hb hv htext hp,
    fun r b role p hb hu hp => related_redefine h hd hl hk hsp hb (huser b hu) hp,
    fun r b role p c hb hu hp hc => played_redefine h hd hl hk hsp hb (huser b hu) hp hc, ?_⟩
  · intro id b hb
    rcases h.instances.typed id b hb with hkind | ⟨hn, hrel⟩
    · exact Or.inl ((Schema.hasKind_redefine hd hk _ _).2 hkind)
    · refine Or.inr ⟨(hget b.type).trans ?_, hrel⟩
      rw [if_neg, hn]
      intro hbt
      rw [hbt, hd] at hn
      simp at hn
  · intro id b e' hb he' hab
    replace he' := (hget b.type).symm.trans he'
    split at he'
    · rename_i hbt
      obtain rfl := Option.some.inj he'
      by_cases hold : d.isAbstract
      · exact h.instances.concrete id b d hb (hbt ▸ hd) hold
      · exact hsp.isAbstract hab hold id b hb hbt
    · exact h.instances.concrete id b e' hb he' hab
  · intro r b q hb hq
    obtain ⟨o, a, hedge, -, hplays⟩ := h.instances.edge hb hq
    exact ⟨o, a, mayHold_redefine h hd hl hk hsp hedge, hplays⟩

end Spared

/-- **Another definition.** It may say less where no instance relies on it. -/
theorem Sound.redefine (h : s.Sound first n) {t : TypeId} {d d' : TypeDef} (hd : s.schema.get? t = some d)
    (ht : ¬ s.schema.isMeta t) (hl : d'.label = d.label) (hk : d'.kind = d.kind) (hrefs : s.schema.RefsDefined d')
    (hr : (s.schema.redefine t d').Recorded) (hsp : s.Spared t d d') :
    ({ s with schema := s.schema.redefine t d' } : State).Sound first n where
  coherent := Schema.redefine_coherent h.coherent hd ht hl hk hrefs
  recorded := hr
  agreeing := agreeing_redefine h.coherent.indexed hd hl hk h.agreeing hsp
  indexed := h.indexed
  closed := h.closed
  instances := .redefine h hd hl hk hsp
  issuedTypes x e' he' := by
    obtain ⟨e, he⟩ := defined_before_redefine hd he'
    exact h.issuedTypes x e he
  issuedThings := h.issuedThings

end State

end ConceptGraph
