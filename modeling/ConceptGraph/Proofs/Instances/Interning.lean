/-
Interned attributes: one type has one attribute of a value, whatever comes in between.

- `Value.CountsAs`: two values of one data type that are equal, or that are both NaN. `Value.key_eq_iff`: those are stored
  under one key.
- `Transaction.Interns`: what putting a value comes to. `perform_putAttribute_interns`: whatever it answers, it is that.
- `Session.attributes_interned`: so it is in every transaction that a session gets to, and two values have one attribute
  exactly if they count as one value of one type.
-/
import ConceptGraph.Proofs.Session.Runs

namespace ConceptGraph

open Std

/-! ## Numbers -/

namespace FloatFormat

variable {f : FloatFormat} {a b : Nat}

/-- patterns have one identity if they are equal as numbers or none of them is a number -/
theorem identityBits_eq_iff (hnan : f.isNaN f.nanBits) (hzero : ¬ f.isNaN 0) :
    f.identityBits a = f.identityBits b ↔ f.sameNumber a b ∨ (f.isNaN a ∧ f.isNaN b) := by
  -- the one NaN and zero stand for no other pattern
  have apart : ∀ {c}, ¬ f.isNaN c → f.identityBits c ≠ f.nanBits := by
    intro c hc he
    unfold identityBits at he
    rw [if_neg hc] at he
    split at he
    · exact hzero (he ▸ hnan)
    · exact hc (he ▸ hnan)
  have hmod : f.isZero 0 := by simp [isZero]
  by_cases ha : f.isNaN a <;> by_cases hb : f.isNaN b
  · simp [identityBits, ha, hb]
  · have := apart hb
    simp [sameNumber, identityBits, ha, hb] at this ⊢
    exact Ne.symm this
  · have := apart ha
    simp [sameNumber, identityBits, ha, hb] at this ⊢
    exact this
  · by_cases hza : f.isZero a <;> by_cases hzb : f.isZero b
    · simp [sameNumber, identityBits, ha, hb, hza, hzb]
    · have hne : b ≠ 0 := fun h => hzb (h ▸ hmod)
      have hne' : a ≠ b := fun h => hzb (h ▸ hza)
      simp [sameNumber, identityBits, ha, hb, hza, hzb, hne.symm, hne']
    · have hne : a ≠ 0 := fun h => hza (h ▸ hmod)
      have hne' : a ≠ b := fun h => hza (h ▸ hzb)
      simp [sameNumber, identityBits, ha, hb, hza, hzb, hne, hne']
    · simp [sameNumber, identityBits, ha, hb, hza, hzb]

theorem identityBits_lt {bound : Nat} (hnan : f.nanBits < bound) (ha : a < bound) : f.identityBits a < bound := by
  unfold identityBits
  split
  · exact hnan
  · split
    · exact Nat.zero_lt_of_lt ha
    · exact ha

end FloatFormat

theorem Double.identityBits_eq_iff {a b : Double} : a.identityBits = b.identityBits ↔ a.sameNumber b ∨
    (FloatFormat.double.isNaN a.bits.toNat ∧ FloatFormat.double.isNaN b.bits.toNat) := by
  have hlt : ∀ c : Double, FloatFormat.double.identityBits c.bits.toNat < 2 ^ 64 := fun c =>
    FloatFormat.identityBits_lt (by decide +kernel) c.bits.toNat_lt
  rw [identityBits, identityBits, ← UInt64.toNat_inj, UInt64.toNat_ofNat_of_lt' (hlt a),
    UInt64.toNat_ofNat_of_lt' (hlt b)]
  exact FloatFormat.identityBits_eq_iff (by decide +kernel) (by decide +kernel)

theorem Single.identityBits_eq_iff {a b : Single} : a.identityBits = b.identityBits ↔ a.sameNumber b ∨
    (FloatFormat.single.isNaN a.bits.toNat ∧ FloatFormat.single.isNaN b.bits.toNat) := by
  have hlt : ∀ c : Single, FloatFormat.single.identityBits c.bits.toNat < 2 ^ 32 := fun c =>
    FloatFormat.identityBits_lt (by decide +kernel) c.bits.toNat_lt
  rw [identityBits, identityBits, ← UInt32.toNat_inj, UInt32.toNat_ofNat_of_lt' (hlt a),
    UInt32.toNat_ofNat_of_lt' (hlt b)]
  exact FloatFormat.identityBits_eq_iff (by decide +kernel) (by decide +kernel)

/-! ## Values -/

namespace Value

/-- whether the bits of a floating-point value are those of no number -/
def isNaN : Value → Bool
  | .double d => FloatFormat.double.isNaN d.bits.toNat
  | .float f => FloatFormat.single.isNaN f.bits.toNat
  | _ => false

/-- two values of one data type that are equal, or that are no numbers both of them -/
def CountsAs (v w : Value) : Prop := v.dataType = w.dataType ∧ (v.same w ∨ (v.isNaN ∧ w.isNaN))

/-- **One key** for each value, and for all NaNs of a data type. -/
theorem key_eq_iff {v w : Value} : v.key = w.key ↔ v.CountsAs w := by
  cases v <;> cases w <;>
    simp [key, CountsAs, dataType, same, isNaN, Double.identityBits_eq_iff, Single.identityBits_eq_iff]

end Value

/-! ## Attributes -/

namespace Graph

variable {g : Graph} {a : TypeId} {v : Value} {x : ThingId}

/-- what is found for a value is an attribute of the type, with a value of the same key -/
theorem findAttribute?_eq_some_iff (hi : g.Indexed) :
    g.findAttribute? a v = some x ↔ ∃ w, g.get? x = some ⟨a, .attribute w⟩ ∧ w.key = v.key := by
  rw [findAttribute?_eq_some hi]
  constructor
  · rintro ⟨b, w, hb, rfl, hw, hk⟩
    obtain ⟨⟨ty, body⟩, hth, rfl⟩ := get?_of_bare? hb
    cases body with
    | «attribute» u =>
      obtain rfl := Option.some.inj hw
      exact ⟨u, hth, hk⟩
    | _ => cases hw
  · rintro ⟨w, hth, hk⟩
    exact ⟨_, w, bare?_of_get? hth, rfl, rfl, hk⟩

end Graph

namespace Transaction

variable {first : UInt64} {n : Nat} {t t' : Transaction} {a : TypeId} {v : Value} {x : ThingId}

/-- **Putting a value** answers the attribute that holds it, or makes one if there is none. Nothing that is stored is
replaced. -/
structure Interns (t t' : Transaction) (a : TypeId) (v : Value) (x : ThingId) : Prop where
  found : ∀ y, t.working.graph.findAttribute? a v = some y → y = x ∧ t' = t
  made : t.working.graph.findAttribute? a v = none ↔ ¬ t.working.graph.contains x
  stored : ∃ w, t'.working.graph.get? x = some ⟨a, .attribute w⟩ ∧ w.key = v.key
  kept : ∀ y th, t.working.graph.get? y = some th → t'.working.graph.get? y = some th

theorem putAttribute_interns (h : t.Sound first n) (hn : n < 2 ^ 64) (a : TypeId) (v : Value) :
    Ensures (putAttribute a v) t fun x t' => Interns t t' a v x := by
  unfold putAttribute
  refine .ask fun _ _ => .look ?_
  cases hfound : t.working.graph.findAttribute? a v with
  | some x =>
    obtain ⟨w, hw, hk⟩ := (Graph.findAttribute?_eq_some_iff h.working.indexed).1 hfound
    refine .pure ⟨fun y hy => ⟨Option.some.inj (hy.symm.trans hfound), rfl⟩, ?_, ⟨w, hw, hk⟩, fun _ _ hy => hy⟩
    rw [hfound]
    exact iff_of_false nofun fun hx => hx (Graph.contains_iff_get?.2 ⟨_, hw⟩)
  | none =>
    have hnew : ¬ t.working.graph.contains ⟨t.ids.next⟩ := h.working.not_contains_next _ h.ids hn
    refine .newThing (.editGraph fun y graph' hins => .record (.pure ?_))
    obtain rfl : (t.working.graph.insert ⟨t.ids.next⟩ ⟨a, .attribute v⟩).2 = graph' :=
      congrArg Prod.snd (Except.ok.inj hins)
    have hget : ∀ y, (t.working.graph.insert ⟨t.ids.next⟩ ⟨a, .attribute v⟩).2.get? y =
        if y = ⟨t.ids.next⟩ then some ⟨a, .attribute v⟩ else t.working.graph.get? y := by
      intro y
      rw [Graph.insert_eq fun w hw => Option.some.inj hw ▸ hfound]
      exact lookup_insert ..
    refine ⟨fun y hy => by simp [hy] at hfound, iff_of_true hfound hnew, ⟨v, ?_, rfl⟩, fun y th hy => ?_⟩
    · exact (hget _).trans (if_pos rfl)
    · refine (hget y).trans ((if_neg ?_).trans hy)
      rintro rfl
      exact hnew (Graph.contains_iff_get?.2 ⟨th, hy⟩)

theorem perform_putAttribute_interns (h : t.Sound first n) (hn : n < 2 ^ 64)
    (hput : t.perform (.putAttribute a v) = (.ok (.thing x), t')) : Interns t t' a v x := by
  obtain ⟨y, hout, hy⟩ := outcome_map_eq_ok.1 hput
  obtain rfl := Reply.thing.inj hy
  exact putAttribute_interns h hn a v y t' hout

/-- putting another value answers the same attribute exactly if it counts as the same value of the same type -/
theorem Interns.eq_iff {t₁ t₂ : Transaction} {b : TypeId} {w : Value} {y : ThingId} (hi : t₁.working.graph.Indexed)
    (h : Interns t t₁ a v x) (h' : Interns t₁ t₂ b w y) : x = y ↔ a = b ∧ v.CountsAs w := by
  obtain ⟨u, hu, hk⟩ := h.stored
  obtain ⟨u', hu', hk'⟩ := h'.stored
  rw [← Value.key_eq_iff]
  constructor
  · rintro rfl
    obtain ⟨rfl, hbody⟩ := Thing.mk.inj (Option.some.inj ((h'.kept x _ hu).symm.trans hu'))
    obtain rfl := ThingBody.attribute.inj hbody
    exact ⟨rfl, hk.symm.trans hk'⟩
  · rintro ⟨rfl, hvw⟩
    exact (h'.found x ((Graph.findAttribute?_eq_some_iff hi).2 ⟨u, hu, hk.trans hvw⟩)).1

end Transaction

namespace Session

open Transaction

variable {config : SessionConfig} {ids : Option IdSource} {journal : Option Journal} {s : Session} {es : List Event}
  {t t₁ : Transaction} {a : TypeId} {v : Value} {x : ThingId}

/-- **Attributes are interned.** In whatever state a session gets to, a value that can be put has one attribute of the
type, which is looked up or made and then stays as it is. The next value that is put has the same one exactly if it
counts as the same value of the same type. -/
theorem attributes_interned (hs : start config ids journal = .ok s)
    (hfit : s.issued (es ++ [.perform (.putAttribute a v)]) < 2 ^ 64) (hw : (s.run es).writer = some t)
    (hput : t.perform (.putAttribute a v) = (.ok (.thing x), t₁)) : Interns t t₁ a v x ∧
      ∀ b w y t₂, t₁.perform (.putAttribute b w) = (.ok (.thing y), t₂) →
        s.issued (es ++ [.perform (.putAttribute a v), .perform (.putAttribute b w)]) < 2 ^ 64 →
          Interns t₁ t₂ b w y ∧ (x = y ↔ a = b ∧ v.CountsAs w) := by
  have h := writer_sound hs hfit (List.prefix_refl _) hw
  have hfit₁ := fits_during hfit hw (List.prefix_refl _)
  have h₁ := perform_sound h _ hfit₁
  rw [hput] at h₁ hfit₁
  have hx := perform_putAttribute_interns h (by omega) hput
  refine ⟨hx, fun b w y t₂ hput₂ hfit₂ => ?_⟩
  have hy := perform_putAttribute_interns h₁ (by omega) hput₂
  exact ⟨hy, hx.eq_iff h₁.working.indexed hy⟩

/-- a size that has been deleted, and one that no number is, of which there is nothing left after a return -/
def sizesGone : List Event :=
  [.begin, .perform (.putAttributeType "size" (some .double)), .perform (.putAttribute ⟨6⟩ (.double ⟨0⟩)),
    .perform (.deleteThing ⟨7⟩), .perform (.savepoint "sizes"),
    .perform (.putAttribute ⟨6⟩ (.double ⟨0x7ff8000000000000⟩)), .perform (.rollbackTo "sizes")]

set_option maxRecDepth 10000 in
/-- the two zeros have one new attribute -/
theorem sizesGone_interned : blank.issued (sizesGone ++ [.perform (.putAttribute ⟨6⟩ (.double ⟨0⟩))]) < 2 ^ 64 ∧
    blank.issued (sizesGone ++ [.perform (.putAttribute ⟨6⟩ (.double ⟨0⟩)),
      .perform (.putAttribute ⟨6⟩ (.double ⟨0x8000000000000000⟩))]) < 2 ^ 64 ∧
    ∃ t t₁ t₂, (blank.run sizesGone).writer = some t ∧
      t.perform (.putAttribute ⟨6⟩ (.double ⟨0⟩)) = (.ok (.thing ⟨9⟩), t₁) ∧ Interns t t₁ ⟨6⟩ (.double ⟨0⟩) ⟨9⟩ ∧
      t₁.perform (.putAttribute ⟨6⟩ (.double ⟨0x8000000000000000⟩)) = (.ok (.thing ⟨9⟩), t₂) ∧
      (Value.double ⟨0⟩).CountsAs (.double ⟨0x8000000000000000⟩) := by
  have hfit : blank.issued (sizesGone ++ [.perform (.putAttribute ⟨6⟩ (.double ⟨0⟩))]) < 2 ^ 64 := by decide +kernel
  have hfit' : blank.issued (sizesGone ++ [.perform (.putAttribute ⟨6⟩ (.double ⟨0⟩)),
      .perform (.putAttribute ⟨6⟩ (.double ⟨0x8000000000000000⟩))]) < 2 ^ 64 := by decide +kernel
  have hfound : (blank.run sizesGone).writer.map (fun t =>
      let p := t.perform (.putAttribute ⟨6⟩ (.double ⟨0⟩))
      (p.1.toOption, (p.2.perform (.putAttribute ⟨6⟩ (.double ⟨0x8000000000000000⟩))).1.toOption)) =
      some (some (.thing ⟨9⟩), some (.thing ⟨9⟩)) := by decide +kernel
  obtain ⟨t, hw, ht⟩ := Option.map_eq_some_iff.1 hfound
  simp only [Prod.mk.injEq, toOption_eq_some] at ht
  have hput := Prod.ext (y := (_, (t.perform (.putAttribute ⟨6⟩ (.double ⟨0⟩))).2)) ht.1 rfl
  have hput' := Prod.ext (y := (_, ((t.perform (.putAttribute ⟨6⟩ (.double ⟨0⟩))).2.perform
    (.putAttribute ⟨6⟩ (.double ⟨0x8000000000000000⟩))).2)) ht.2 rfl
  obtain ⟨hx, hnext⟩ := attributes_interned start_testing hfit hw hput
  exact ⟨hfit, hfit', t, _, _, hw, hput, hx, hput', ((hnext _ _ _ _ hput' hfit').2.1 rfl).2⟩

end Session

end ConceptGraph
