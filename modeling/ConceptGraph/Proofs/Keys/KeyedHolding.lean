/-
What keys have to do with an attribute that an instance is to hold.

- `KeyTaken`: a key that applies to both is in the way, because the instance holds something under it already, or another
  instance holds the same value.
- `checkSetHas_decides`: an attribute that may be held and is not yet is refused for a key exactly if one is taken.
- `KeysUnbroken`: under no key an instance holds two attributes, or two instances the same value.
  `setHas_keysUnbroken`: that stays so when one more attribute is held.
- `Session.held_unless_taken`: both, in every transaction that a session gets to.
-/
import ConceptGraph.Proofs.Instances.Scans

namespace ConceptGraph

open Std

namespace Schema

variable {s : Schema} {t a : TypeId}

/-- the type itself declares the attribute type a key -/
def DeclaresKey (s : Schema) (t a : TypeId) : Prop := ∃ d, s.get? t = some d ∧ d.owns[a]? = some .key

theorem mem_keyDeclarations {decl : OwnershipDecl} : decl ∈ s.keyDeclarations t ↔
    decl.owner ∈ s.supertypes t ∧ s.DeclaresKey decl.owner decl.owned ∧ decl.ownership = .key := by
  obtain ⟨b, c, o⟩ := decl
  simp only [keyDeclarations, List.mem_flatMap, List.mem_map, List.mem_filter, Prod.exists, mem_lineage,
    ExtTreeMap.mem_toList_iff_getElem?_eq_some, OwnershipDecl.mk.injEq, Ownership.isKey, beq_iff_eq]
  constructor
  · rintro ⟨b', d, ⟨hb, hd⟩, c', o', ⟨ho, rfl⟩, rfl, rfl, rfl⟩
    exact ⟨hb, ⟨d, hd, ho⟩, rfl⟩
  · rintro ⟨hb, ⟨d, hd, ho⟩, rfl⟩
    exact ⟨b, d, ⟨hb, hd⟩, c, .key, ⟨ho, rfl⟩, rfl, rfl, rfl⟩

end Schema

namespace State

variable {s : State} {first : UInt64} {n : Nat} {t key : TypeId} {o a x : ThingId} {tho tha : Thing}
  {decl : OwnershipDecl}

/-! ## Taken keys -/

/-- as the key `key` of `t` goes, `o` has to do without `a`: it holds another attribute already, or another instance
holds the same value -/
def Taken (s : State) (t key : TypeId) (o a : ThingId) : Prop :=
  (∃ held, s.HoldsUnder key o held) ∨
    ∃ x held v, x ≠ o ∧ s.IsInstance t x ∧ s.HoldsUnder key x held ∧ s.valueKey? held = some v ∧ s.valueKey? a = some v

/-- so it is by some key that applies to the two -/
def KeyTaken (s : State) (o a : ThingId) : Prop :=
  ∃ t key, s.schema.DeclaresKey t key ∧ s.IsInstance t o ∧ s.IsInstance key a ∧ s.Taken t key o a

theorem keyFault_kind {value : Option Value} {err : ConceptError} (h : s.keyFault o value decl = some err) :
    err.isViolation .keyViolation := by
  unfold keyFault at h
  split at h
  · obtain rfl := Option.some.inj h
    rfl
  · obtain ⟨v, -, h⟩ := Option.bind_eq_some_iff.1 h
    obtain ⟨e, -, h⟩ := Option.bind_eq_some_iff.1 h
    obtain rfl := Option.some.inj h
    rfl

section Sound

variable (h : s.Sound first n)

include h

theorem mem_attributesOf_iff_edge : a ∈ s.attributesOf o ↔ ∃ q r, s.Edge q r o a := by
  simp only [mem_attributesOf_iff h, mem_scanEdges]
  exact exists_comm

/-- another instance of the type holds the value -/
theorem find?_owner_isSome (t key : TypeId) (o : ThingId) (k : ValueKey) :
    ((s.ownershipsOfValue key k).find? fun e =>
      e.owner != o && (s.graph.get? e.owner).any fun other => s.schema.isSubtypeOf other.type t).isSome ↔
    ∃ x held, x ≠ o ∧ s.IsInstance t x ∧ s.HoldsUnder key x held ∧ s.valueKey? held = some k := by
  simp only [List.find?_isSome, mem_ownershipsOfValue_iff h, HoldsUnder, mem_attributesOf_iff h, Bool.and_eq_true,
    bne_iff_ne, Option.any_eq_true, Schema.isSubtypeOf_iff]
  constructor
  · rintro ⟨⟨r, x, held⟩, ⟨he, hkey, hv⟩, hne, hx⟩
    exact ⟨x, held, hne, hx, ⟨⟨r, he⟩, hkey⟩, hv⟩
  · rintro ⟨x, held, hne, hx, ⟨⟨r, he⟩, hkey⟩, hv⟩
    exact ⟨⟨r, x, held⟩, ⟨he, hkey, hv⟩, hne, hx⟩

/-- **One key** stands in the way exactly if it is taken. -/
theorem keyFault_ne_none (htha : s.graph.get? a = some tha) :
    s.keyFault o tha.value? decl ≠ none ↔ s.Taken decl.owner decl.owned o a := by
  unfold keyFault Taken
  cases hheld : s.heldUnder o decl.owned with
  | cons held rest => exact iff_of_true (by simp) (Or.inl ⟨held, mem_heldUnder.1 (by simp [hheld])⟩)
  | nil =>
    have hnone : ¬ ∃ held, s.HoldsUnder decl.owned o held := by
      rintro ⟨held, hh⟩
      have := mem_heldUnder.2 hh
      simp [hheld] at this
    rw [or_iff_right hnone, valueKey?, htha, Option.bind_some]
    cases tha.value? with
    | none => simp
    | some v =>
      have howner := find?_owner_isSome h decl.owner decl.owned o v.key
      rw [Option.isSome_iff_exists] at howner
      simpa [Option.bind_eq_some_iff, and_assoc] using howner

/-- some key is in the way exactly if one is taken -/
theorem exists_fault_iff (htho : s.graph.get? o = some tho) (htha : s.graph.get? a = some tha) :
    (∃ decl ∈ (s.schema.keyDeclarations tho.type).filter fun key => s.schema.isSubtypeOf tha.type key.owned,
      s.keyFault o tha.value? decl ≠ none) ↔ s.KeyTaken o a := by
  have ho : ∀ t, s.IsInstance t o ↔ t ∈ s.schema.supertypes tho.type := by simp [IsInstance, htho]
  have ha : ∀ t, s.IsInstance t a ↔ t ∈ s.schema.supertypes tha.type := by simp [IsInstance, htha]
  simp only [List.mem_filter, Schema.mem_keyDeclarations, Schema.isSubtypeOf_iff, keyFault_ne_none h htha, KeyTaken,
    ho, ha]
  constructor
  · rintro ⟨⟨t, key, _⟩, ⟨⟨ht, hkey, -⟩, hb⟩, htaken⟩
    exact ⟨t, key, hkey, ht, hb, htaken⟩
  · rintro ⟨t, key, hkey, ht, hb, htaken⟩
    exact ⟨⟨t, key, .key⟩, ⟨⟨ht, hkey, rfl⟩, hb⟩, htaken⟩

/-- who may hold what, by which declaration -/
theorem MayHold.declared (hmay : s.MayHold o a) : ∃ tho tha decl, s.graph.get? o = some tho ∧
    s.graph.get? a = some tha ∧ tha.isAttribute ∧ s.schema.ownership? tho.type tha.type = some decl := by
  obtain ⟨v, hv⟩ := valueKey?_of_mayHold h hmay
  obtain ⟨bo, ba, hbo, hba, hown⟩ := hmay
  obtain ⟨tho, htho, rfl⟩ := Graph.get?_of_bare? hbo
  obtain ⟨tha, htha, rfl⟩ := Graph.get?_of_bare? hba
  rw [Thing.bare_type, Thing.bare_type] at hown
  obtain ⟨decl, hdecl⟩ := Option.isSome_iff_exists.1 hown
  refine ⟨tho, tha, decl, htho, htha, ?_, hdecl⟩
  rw [valueKey?, htha, Option.bind_some] at hv
  obtain ⟨w, hw, -⟩ := Option.map_eq_some_iff.1 hv
  rw [Thing.isAttribute, hw]
  rfl

/-- what the instance may hold and does not is looked at by its keys, and nothing else -/
theorem checkSetHas_new (hmay : s.MayHold o a) (hnot : a ∉ s.attributesOf o) :
    ∃ tho tha decl, s.graph.get? o = some tho ∧ s.graph.get? a = some tha ∧ s.checkSetHas o a = (do
      checkEach ((s.schema.keyDeclarations tho.type).filter fun key => s.schema.isSubtypeOf tha.type key.owned)
        (s.keyFault o tha.value?)
      pure decl) := by
  obtain ⟨tho, tha, decl, htho, htha, hattr, hdecl⟩ := hmay.declared h
  have hnone : ¬ (s.ownershipBetween? o a).isSome := by
    rwa [ownershipBetween?_isSome h.recorded h.indexed h.instances, ← mem_attributesOf_iff_edge h]
  refine ⟨tho, tha, decl, htho, htha, ?_⟩
  simp [checkSetHas, thing_eq_ok.2 htho, thing_eq_ok.2 htha, hattr, hdecl, hnone, bind, Except.bind]

/-- **What is held** may be held, whatever keys there are. -/
theorem checkSetHas_held {q : ImplicitOwnership} {r : ThingId} (hedge : s.Edge q r o a) :
    ∃ decl, s.checkSetHas o a = .ok decl := by
  obtain ⟨tho, tha, decl, htho, htha, hattr, hdecl⟩ := (hedge.mayHold h.recorded h.instances).declared h
  have hheld := (ownershipBetween?_isSome h.recorded h.indexed h.instances).2 ⟨q, r, hedge⟩
  refine ⟨decl, ?_⟩
  simp [checkSetHas, thing_eq_ok.2 htho, thing_eq_ok.2 htha, hattr, hdecl, hheld, bind, Except.bind, pure, Except.pure]

/-- **What may be held** and is not yet is refused for a key exactly if one is taken, and for nothing else. -/
theorem checkSetHas_decides (hmay : s.MayHold o a) (hnot : a ∉ s.attributesOf o) :
    Decides (s.checkSetHas o a) .keyViolation (s.KeyTaken o a) := by
  obtain ⟨tho, tha, decl, htho, htha, hc⟩ := checkSetHas_new h hmay hnot
  have hkeys := (checkEach_decides fun _ _ _ => keyFault_kind).congr (exists_fault_iff h htho htha)
  rcases hkeys.cases with ⟨_, hr, hfree⟩ | ⟨err, hr, hkind, htaken⟩
  · exact .of_ok (by rw [hc, hr]; rfl) hfree
  · exact .of_error (by rw [hc, hr]; rfl) hkind htaken

end Sound

/-! ## One more attribute -/

/-- what the key `key` of `t` forbids at any time: two attributes of one instance, and one value of two instances -/
structure KeyUnbroken (s : State) (t key : TypeId) : Prop where
  single : ∀ x held held', s.IsInstance t x → s.HoldsUnder key x held → s.HoldsUnder key x held' → held = held'
  distinct : ∀ x y held held' v, s.IsInstance t x → s.IsInstance t y → x ≠ y → s.HoldsUnder key x held →
    s.HoldsUnder key y held' → s.valueKey? held = some v → s.valueKey? held' ≠ some v

/-- no key is broken, though instances may be without one -/
def KeysUnbroken (s : State) : Prop := ∀ t key, s.schema.DeclaresKey t key → s.KeyUnbroken t key

theorem KeysKept.unbroken (h : s.KeysKept) : s.KeysUnbroken := by
  rintro t key ⟨d, hd, hkey⟩
  obtain ⟨hone, hdistinct⟩ := h t d key hd hkey
  exact ⟨fun x held held' hx hh hh' => (hone x hx).unique hh hh', hdistinct⟩

theorem isInstance_iff_bare? : s.IsInstance t x ↔ ∃ b, s.graph.bare? x = some b ∧ t ∈ s.schema.supertypes b.type := by
  constructor
  · rintro ⟨th, hth, ht⟩
    exact ⟨th.bare, Graph.bare?_of_get? hth, by rwa [Thing.bare_type]⟩
  · rintro ⟨b, hb, ht⟩
    obtain ⟨th, hth, rfl⟩ := Graph.get?_of_bare? hb
    exact ⟨th, hth, by rwa [Thing.bare_type] at ht⟩

theorem valueKey?_eq_bare? (s : State) (x : ThingId) :
    s.valueKey? x = ((s.graph.bare? x).bind Thing.value?).map Value.key := by
  unfold valueKey? Graph.bare?
  cases s.graph.get? x with
  | none => rfl
  | some th => simp [Thing.bare_value?]

/-- nothing is broken by an attribute that no key is in the way of, if nothing else comes to be held -/
theorem KeysUnbroken.hold {s' : State} (hkeys : s.KeysUnbroken) (hfree : ¬ s.KeyTaken o a)
    (hschema : s'.schema = s.schema) (hmore : ∀ x held, held ∈ s'.attributesOf x →
      s'.graph.bare? x = s.graph.bare? x ∧ s'.graph.bare? held = s.graph.bare? held ∧
        (held ∈ s.attributesOf x ∨ (x = o ∧ held = a))) : s'.KeysUnbroken := by
  intro t key hdecl
  rw [hschema] at hdecl
  have hkept := hkeys t key hdecl
  have howner : ∀ {x held}, s'.HoldsUnder key x held → s'.IsInstance t x → s.IsInstance t x := by
    intro x held hheld hx
    rwa [isInstance_iff_bare?, hschema, (hmore x held hheld.1).1, ← isInstance_iff_bare?] at hx
  have hvalue : ∀ {x held}, s'.HoldsUnder key x held → s'.valueKey? held = s.valueKey? held := by
    intro x held hheld
    rw [valueKey?_eq_bare?, (hmore x held hheld.1).2.1, ← valueKey?_eq_bare?]
  -- an attribute of the key has been held before, or is the new one
  have hheld : ∀ {x held}, s'.HoldsUnder key x held →
      s.HoldsUnder key x held ∨ (x = o ∧ held = a ∧ s.IsInstance key a) := by
    rintro x held ⟨hin, hkey⟩
    obtain ⟨-, hsame, hcase⟩ := hmore x held hin
    rw [isInstance_iff_bare?, hschema, hsame, ← isInstance_iff_bare?] at hkey
    rcases hcase with hold | ⟨rfl, rfl⟩
    · exact Or.inl ⟨hold, hkey⟩
    · exact Or.inr ⟨rfl, rfl, hkey⟩
  refine ⟨fun x held held' hx hh hh' => ?_, fun x y held held' v hx hy hne hh hh' hv hv' => ?_⟩
  · have hx := howner hh hx
    rcases hheld hh with hold | ⟨rfl, rfl, hkey⟩ <;> rcases hheld hh' with hold' | ⟨hxo, rfl, hkey'⟩
    · exact hkept.single x held held' hx hold hold'
    · exact absurd ⟨t, key, hdecl, hxo ▸ hx, hkey', Or.inl ⟨held, hxo ▸ hold⟩⟩ hfree
    · exact absurd ⟨t, key, hdecl, hx, hkey, Or.inl ⟨held', hold'⟩⟩ hfree
    · rfl
  · have hx := howner hh hx
    have hy := howner hh' hy
    rw [hvalue hh] at hv
    rw [hvalue hh'] at hv'
    rcases hheld hh with hold | ⟨rfl, rfl, hkey⟩ <;> rcases hheld hh' with hold' | ⟨hyo, rfl, hkey'⟩
    · exact hkept.distinct x y held held' v hx hy hne hold hold' hv hv'
    · exact hfree ⟨t, key, hdecl, hyo ▸ hy, hkey', Or.inr ⟨x, held, v, hyo ▸ hne, hx, hold, hv, hv'⟩⟩
    · exact hfree ⟨t, key, hdecl, hx, hkey, Or.inr ⟨y, held', v, hne.symm, hy, hold', hv', hv⟩⟩
    · exact hne hyo.symm

/-- what is held when one relation more records that `o` holds `a` -/
theorem held_of_grown {m : Nat} {graph' : Graph} {id : ThingId} {q : ImplicitOwnership} (h : s.Sound first n)
    (h' : ({ s with graph := graph' } : State).Sound first m) (hrec : s.schema.HasRecord q)
    (hgr : s.graph.Grown graph' id ⟨q.relation, .relation ∅⟩ fun role p =>
      (role = q.ownerRole ∧ p = o) ∨ (role = q.valueRole ∧ p = a)) (hmay : s.MayHold o a) {held : ThingId}
    (hheld : held ∈ ({ s with graph := graph' } : State).attributesOf x) :
    graph'.bare? x = s.graph.bare? x ∧ graph'.bare? held = s.graph.bare? held ∧
      (held ∈ s.attributesOf x ∨ (x = o ∧ held = a)) := by
  obtain ⟨bo, ba, hbo, hba, -⟩ := hmay
  obtain ⟨q', r, he⟩ := (mem_attributesOf_iff_edge h').1 hheld
  rcases he.of_held h.recorded hrec hgr with he | ⟨-, -, rfl, rfl⟩
  · obtain ⟨bx, bh, hbx, hbh, -⟩ := he.mayHold h.recorded h.instances
    exact ⟨by rw [hbx, hgr.kept hbx], by rw [hbh, hgr.kept hbh], Or.inl ((mem_attributesOf_iff_edge h).2 ⟨q', r, he⟩)⟩
  · exact ⟨by rw [hbo, hgr.kept hbo], by rw [hba, hgr.kept hba], Or.inr ⟨rfl, rfl⟩⟩

end State

namespace Transaction

open State

variable {first : UInt64} {n : Nat} {t : Transaction} {o a : ThingId}

/-! ## Holding an attribute -/

/-- what is asked before decides what comes of it -/
theorem setHas_decides {kind : ViolationKind} {p : Prop} (h : t.Sound first n)
    (hfit : n + drawn t (t.perform (.setHas o a)).2 < 2 ^ 64) (hc : Decides (t.working.checkSetHas o a) kind p) :
    Decides (t.perform (.setHas o a)).1 kind p := by
  have hmap : t.perform (.setHas o a) = ((outcome (setHas o a) t).1.map Reply.thing, (outcome (setHas o a) t).2) :=
    outcome_map _ _ _
  rw [hmap] at hfit ⊢
  rcases hc.cases with ⟨decl, hok, hp⟩ | ⟨err, herr, hkind, hp⟩
  · obtain ⟨x, t', hout, -⟩ := setHas_settles h hok hfit
    exact .of_ok (by rw [hout]; rfl) hp
  · have hout : outcome (setHas o a) t = (.error err, t) := outcome_refused herr
    exact .of_error (by rw [hout]; rfl) hkind hp

/-- **Keys stay unbroken** when one more attribute is held. -/
theorem setHas_keysUnbroken {r : Reply} (h : t.Sound first n)
    (hfit : n + drawn t (t.perform (.setHas o a)).2 < 2 ^ 64) (hok : (t.perform (.setHas o a)).1 = .ok r)
    (hkeys : t.working.KeysUnbroken) : (t.perform (.setHas o a)).2.working.KeysUnbroken := by
  have hsound := (perform_sound h _ hfit).working
  have hperf : outcome (Reply.thing <$> setHas o a) t = (.ok r, (t.perform (.setHas o a)).2) := Prod.ext hok rfl
  obtain ⟨x, hout, -⟩ := outcome_map_eq_ok.1 hperf
  generalize (t.perform (.setHas o a)).2 = t' at hsound hout ⊢
  rcases setHas_holds h (by omega) o a x t' hout with rfl | ⟨decl, q, hc, hq, hnone, hschema, hgr⟩
  · exact hkeys
  · have hmay := checkSetHas_mayHold hc
    have hnot : a ∉ t.working.attributesOf o := by
      simp [mem_attributesOf_iff_edge h.working, ← ownershipBetween?_isSome h.working.recorded h.working.indexed
        h.working.instances, hnone]
    -- a key in the way would have been told
    have hfree : ¬ t.working.KeyTaken o a := (checkSetHas_decides h.working hmay hnot).kept.1 ⟨decl, hc⟩
    have hw : t'.working = ⟨t.working.schema, t'.working.graph⟩ := by rw [← hschema]
    rw [hw] at hsound ⊢
    have hrec := (h.working.recorded.implicitForOwned?.1 hq).1
    exact hkeys.hold hfree rfl fun y held => held_of_grown h.working hsound hrec hgr hmay

end Transaction

namespace Session

open State

variable {config : SessionConfig} {ids : Option IdSource} {journal : Option Journal} {s : Session} {es : List Event}
  {t : Transaction} {o a : ThingId}

/-- **Keys decide** whether an instance may hold one more attribute. In whatever state a session gets to, an attribute
that may be held and is not yet is refused for a key exactly if a key that applies is taken, and otherwise comes to be
held. So keys that are unbroken stay so, whatever comes to be held. -/
theorem held_unless_taken (hs : start config ids journal = .ok s)
    (hfit : s.issued (es ++ [.perform (.setHas o a)]) < 2 ^ 64) (hw : (s.run es).writer = some t) :
    (t.working.MayHold o a → a ∉ t.working.attributesOf o →
      Decides (t.perform (.setHas o a)).1 .keyViolation (t.working.KeyTaken o a)) ∧
    (∀ r, (t.perform (.setHas o a)).1 = .ok r → t.working.KeysUnbroken →
      (t.perform (.setHas o a)).2.working.KeysUnbroken) := by
  have h := writer_sound hs hfit (List.prefix_refl _) hw
  have hfit' := fits_during hfit hw (List.prefix_refl _)
  refine ⟨fun hmay hnot => ?_, fun r hok hkeys => Transaction.setHas_keysUnbroken h hfit' hok hkeys⟩
  exact Transaction.setHas_decides h hfit' (checkSetHas_decides h.working hmay hnot)

/-- two employees who hold nicknames, which are names, the key of a person; the employees' own declaration is no key -/
def nicknamed : List Event :=
  [.begin, .perform (.putEntityType "person"), .perform (.putEntityType "employee"), .perform (.setSupertype ⟨7⟩ ⟨6⟩),
    .perform (.putAttributeType "name" (some .string)), .perform (.putAttributeType "nick" none),
    .perform (.setSupertype ⟨9⟩ ⟨8⟩), .perform (.key ⟨6⟩ ⟨8⟩), .perform (.has ⟨7⟩ ⟨9⟩),
    .perform (.putAttributeType "tag" (some .string)), .perform (.has ⟨6⟩ ⟨16⟩), .perform (.createEntity ⟨7⟩),
    .perform (.createEntity ⟨7⟩), .perform (.putAttribute ⟨8⟩ (.string "x")), .perform (.putAttribute ⟨9⟩ (.string "x")),
    .perform (.putAttribute ⟨9⟩ (.string "y")), .perform (.putAttribute ⟨16⟩ (.string "z")),
    .perform (.setHas ⟨20⟩ ⟨22⟩), .perform (.setHas ⟨21⟩ ⟨24⟩)]

set_option maxRecDepth 10000 in
/-- a second nickname is refused, a tag is not -/
theorem nicknamed_held_unless_taken :
    blank.issued (nicknamed ++ [.perform (.setHas ⟨21⟩ ⟨23⟩)]) < 2 ^ 64 ∧
    blank.issued (nicknamed ++ [.perform (.setHas ⟨21⟩ ⟨25⟩)]) < 2 ^ 64 ∧
    ∃ t, (blank.run nicknamed).writer = some t ∧
      (t.working.KeyTaken ⟨21⟩ ⟨23⟩ ∧
        ∃ err, (t.perform (.setHas ⟨21⟩ ⟨23⟩)).1 = .error err ∧ err.isViolation .keyViolation) ∧
      t.working.KeysUnbroken ∧ (t.perform (.setHas ⟨21⟩ ⟨25⟩)).1 = .ok (.thing ⟨28⟩) ∧
      (t.perform (.setHas ⟨21⟩ ⟨25⟩)).2.working.KeysUnbroken := by
  have hfit : blank.issued (nicknamed ++ [.perform (.setHas ⟨21⟩ ⟨23⟩)]) < 2 ^ 64 := by decide +kernel
  have hfit' : blank.issued (nicknamed ++ [.perform (.setHas ⟨21⟩ ⟨25⟩)]) < 2 ^ 64 := by decide +kernel
  have hfound : (blank.run nicknamed).writer.map (fun t =>
      ((t.working.graph.bare? ⟨21⟩).map Thing.type, (t.working.graph.bare? ⟨23⟩).map Thing.type,
        (t.working.schema.ownership? ⟨7⟩ ⟨9⟩).isSome, t.working.attributesOf ⟨21⟩)) =
      some (some ⟨7⟩, some ⟨9⟩, true, [⟨24⟩]) := by decide +kernel
  have hanswers : (blank.run nicknamed).writer.map (fun t =>
      (t.working.commitViolations, (t.perform (.setHas ⟨21⟩ ⟨23⟩)).1.toOption,
        (t.perform (.setHas ⟨21⟩ ⟨25⟩)).1.toOption)) = some ([], none, some (.thing ⟨28⟩)) := by decide +kernel
  obtain ⟨t, hw, ht⟩ := Option.map_eq_some_iff.1 hfound
  simp only [Prod.mk.injEq, Option.map_eq_some_iff] at ht
  obtain ⟨⟨bo, hbo, hto⟩, ⟨ba, hba, hta⟩, hdecl, hheld⟩ := ht
  simp only [hw, Option.map_some, Option.some.injEq, Prod.mk.injEq] at hanswers
  obtain ⟨hkept, hrefused, hdone⟩ := hanswers
  have hmay : t.working.MayHold ⟨21⟩ ⟨23⟩ := ⟨bo, ba, hbo, hba, by rw [hto, hta, hdecl]⟩
  have hnot : ⟨23⟩ ∉ t.working.attributesOf ⟨21⟩ := by simp [hheld]
  have hdecides := (held_unless_taken start_testing hfit hw).1 hmay hnot
  have htaken : t.working.KeyTaken ⟨21⟩ ⟨23⟩ := by
    by_contra hfree
    obtain ⟨r, hr⟩ := hdecides.kept.2 hfree
    rw [toOption_eq_some.2 hr] at hrefused
    simp at hrefused
  have hkeys : t.working.KeysUnbroken := by
    have h := writer_sound start_testing hfit' (List.prefix_refl _) hw
    have hless := Nat.lt_of_le_of_lt (issued_le (List.prefix_append _ _)) hfit'
    have honce := (run_holdsOnce start_testing hless).writer t hw
    exact ((commitViolations_eq_nil h.working honce.working).1 hkept).unbroken
  rw [toOption_eq_some] at hdone
  exact ⟨hfit, hfit', t, hw, ⟨htaken, hdecides.broken.2 htaken⟩, hkeys, hdone,
    (held_unless_taken start_testing hfit' hw).2 _ hdone hkeys⟩

end Session

end ConceptGraph
