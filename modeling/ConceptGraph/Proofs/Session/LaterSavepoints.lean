/-
Which savepoints are left after a return to one of them.

- `LastTaken`: when the savepoint under a name was taken, in events since the start; to take it again counts anew.
- `held_since`: a savepoint that stands has stood ever since, and whatever was recorded at any time since begins with the
  mutations that it was taken after.
- `NoLater`, `SameMutations`: how two savepoints are to each other in time, and in what they were taken after. Of two that
  stand, the later one was taken after all that the other one was taken after (`mutations_extended`).
- `later_savepoints_gone_iff`: a return leaves what was taken no later. It leaves nothing else if and only if something was
  recorded before each of the later ones was taken.
-/
import ConceptGraph.Proofs.Session.Savepoints

namespace ConceptGraph.Session

open Std

variable {config : SessionConfig} {ids : Option IdSource} {journal : Option Journal} {s : Session} {t u v : Transaction}
  {name x y : String} {es : List Event} {k l : Nat}

/-! ## When savepoints were taken -/

/-- the savepoint under the name was taken after `k` events, and not again since -/
def LastTaken (name : String) (es : List Event) (k : Nat) : Prop :=
  es[k]? = some (.perform (.savepoint name)) ∧ .perform (.savepoint name) ∉ es.drop (k + 1)

instance (name : String) (es : List Event) (k : Nat) : Decidable (LastTaken name es k) :=
  inferInstanceAs (Decidable (_ ∧ _))

theorem LastTaken.eq (hk : LastTaken name es k) (hl : LastTaken name es l) : k = l := by
  have apart : ∀ {k l : Nat}, LastTaken name es k → LastTaken name es l → ¬ k < l := by
    intro k l hk hl hlt
    refine hk.2 (List.mem_of_getElem? (i := l - (k + 1)) ?_)
    rw [List.getElem?_drop, Nat.add_sub_cancel' hlt, hl.1]
  exact Nat.le_antisymm (Nat.not_lt.1 (apart hl hk)) (Nat.not_lt.1 (apart hk hl))

theorem LastTaken.take (h : LastTaken name es k) : es.take (k + 1) = es.take k ++ [.perform (.savepoint name)] := by
  rw [List.take_add_one, h.1, Option.toList_some]

/-- a savepoint that stands was taken at some time -/
theorem exists_lastTaken (hs : start config ids journal = .ok s) (hw : (s.run es).writer = some t)
    (hstands : t.savepoints.contains name) : ∃ k, LastTaken name es k := by
  obtain ⟨p, q, -, rfl, hq, -⟩ := last_taken hs hw hstands
  refine ⟨p.length, by simp, fun hmem => ?_⟩
  have hdrop : (p ++ .perform (.savepoint name) :: q).drop (p.length + 1) = q := by simp
  exact (hq (.perform (.savepoint name)) (hdrop ▸ hmem)).2 (List.mem_singleton_self name)

/-! ## Since then -/

/-- what stands after some events, among which it was not taken, stood before them as it does now -/
theorem stood_through (hno : .perform (.savepoint name) ∉ es) (hw : (s.run es).writer = some t)
    (hstands : t.savepoints.contains name) : ∃ w, s.writer = some w ∧ w.savepoints.contains name ∧
      ∀ u, Transaction.Holds name u w → Transaction.Holds name u t := by
  induction es generalizing s with
  | nil => exact ⟨t, hw, hstands, fun _ hu => hu⟩
  | cons e es ih =>
    rw [List.mem_cons, not_or] at hno
    obtain ⟨w', hw', hstands', hkeep'⟩ := ih hno.2 hw
    obtain ⟨w, hw, ⟨rfl, -⟩ | ⟨-, hstood, hkeep⟩⟩ := stood_before_step hw' hstands'
    · exact absurd rfl hno.1
    · exact ⟨w, hw, hstood, fun u hu => hkeep' u (hkeep u hu)⟩

/-- **A savepoint that stands** has stood since it was taken, at each time `l` in between. -/
theorem held_since (hw : (s.run es).writer = some t) (hstands : t.savepoints.contains name)
    (hk : LastTaken name es k) (hl : k < l) : ∃ u w, (s.run (es.take k)).writer = some u ∧
      (s.run (es.take l)).writer = some w ∧ Transaction.Holds name u w := by
  -- it stood at time `l`
  have hno : .perform (.savepoint name) ∉ es.drop l := fun hmem =>
    hk.2 ((List.drop_sublist_drop_left es hl).subset hmem)
  rw [← List.take_append_drop l es, run_append] at hw
  obtain ⟨w, hwl, hstood, -⟩ := stood_through hno hw hstands
  -- and right after it had been taken
  have htake : es.take l = es.take (k + 1) ++ (es.take l).drop (k + 1) := by
    conv_lhs => rw [← List.take_append_drop (k + 1) (es.take l), List.take_take, Nat.min_eq_left hl]
  have hno' : .perform (.savepoint name) ∉ (es.take l).drop (k + 1) := fun hmem =>
    hk.2 ((List.take_sublist l es).drop (k + 1) |>.subset hmem)
  have hwl' := hwl
  rw [htake, run_append] at hwl'
  obtain ⟨w₁, hw₁, hstands₁, hkeep⟩ := stood_through hno' hwl' hstood
  rw [hk.take, run_concat] at hw₁
  obtain ⟨u, hu, ⟨-, hholds⟩ | ⟨⟨-, hname⟩, -⟩⟩ := stood_before_step hw₁ hstands₁
  · exact ⟨u, w, hu, hwl, hkeep u hholds⟩
  · exact absurd (List.mem_singleton_self name) hname

/-- what stands under a name is what was there when it was taken -/
theorem LastTaken.holds (hk : LastTaken name es k) (hw : (s.run es).writer = some t)
    (hstands : t.savepoints.contains name) : ∃ u, (s.run (es.take k)).writer = some u ∧ Transaction.Holds name u t := by
  have hlt : k < es.length := (List.getElem?_eq_some_iff.1 hk.1).1
  obtain ⟨u, w, hu, hw', hholds⟩ := held_since hw hstands hk hlt
  rw [List.take_length, hw] at hw'
  obtain rfl := Option.some.inj hw'
  exact ⟨u, hu, hholds⟩

/-- **Of two savepoints that stand,** the later one was taken after all that the other one was taken after. -/
theorem mutations_extended (hw : (s.run es).writer = some t) (hx : t.savepoints.contains x) (hk : LastTaken x es k)
    (hkl : k ≤ l) (hu : (s.run (es.take k)).writer = some u) (hv : (s.run (es.take l)).writer = some v) :
    u.mutations <+: v.mutations := by
  rcases Nat.eq_or_lt_of_le hkl with rfl | hlt
  · rw [Option.some.inj (hu.symm.trans hv)]
  · obtain ⟨u', v', hu', hv', hholds⟩ := held_since hw hx hk hlt
    obtain rfl := Option.some.inj (hu.symm.trans hu')
    obtain rfl := Option.some.inj (hv.symm.trans hv')
    exact hholds.since

/-! ## Two savepoints -/

/-- `x` was taken no later than `y` -/
def NoLater (es : List Event) (x y : String) : Prop := ∃ k l, LastTaken x es k ∧ LastTaken y es l ∧ k ≤ l

/-- `x` and `y` were taken after the same mutations -/
def SameMutations (s : Session) (es : List Event) (x y : String) : Prop :=
  ∃ k l u v, LastTaken x es k ∧ LastTaken y es l ∧ (s.run (es.take k)).writer = some u ∧
    (s.run (es.take l)).writer = some v ∧ u.mutations = v.mutations

/-- a savepoint is left by a return to another one exactly if it was taken no later, or nothing was recorded since -/
theorem applied_le_iff (hs : start config ids journal = .ok s) (hw : (s.run es).writer = some t) {sp sp' : Savepoint}
    (hx : t.savepoints[x]? = some sp) (hy : t.savepoints[y]? = some sp') :
    sp.applied ≤ sp'.applied ↔ NoLater es x y ∨ SameMutations s es x y := by
  have hx' := contains_iff.2 ⟨sp, hx⟩
  have hy' := contains_iff.2 ⟨sp', hy⟩
  obtain ⟨k, hk⟩ := exists_lastTaken hs hw hx'
  obtain ⟨l, hl⟩ := exists_lastTaken hs hw hy'
  obtain ⟨u, hu, hholds⟩ := hk.holds hw hx'
  obtain ⟨v, hv, hholds'⟩ := hl.holds hw hy'
  obtain rfl := Option.some.inj (hholds.stands.symm.trans hx)
  obtain rfl := Option.some.inj (hholds'.stands.symm.trans hy)
  constructor
  · intro hle
    rcases Nat.le_total k l with hkl | hlk
    · exact Or.inl ⟨k, l, hk, hl, hkl⟩
    · -- the mutations of the later one begin with those of the other one, and are no more
      have hpre := mutations_extended hw hy' hl hlk hv hu
      exact Or.inr ⟨k, l, u, v, hk, hl, hu, hv, (hpre.eq_of_length_le hle).symm⟩
  · rintro (⟨k', l', hk', hl', hkl⟩ | ⟨k', l', u', v', hk', hl', hu', hv', hsame⟩)
    · obtain rfl := hk.eq hk'
      obtain rfl := hl.eq hl'
      exact (mutations_extended hw hx' hk hkl hu hv).length_le
    · obtain rfl := hk.eq hk'
      obtain rfl := hl.eq hl'
      obtain rfl := Option.some.inj (hu.symm.trans hu')
      obtain rfl := Option.some.inj (hv.symm.trans hv')
      exact Nat.le_of_eq (congrArg List.length hsame)

/-! ## Returns -/

/-- what does not stand cannot be returned to or released -/
theorem perform_unknown (hx : ¬ t.savepoints.contains x) :
    t.perform (.rollbackTo x) = (.error (.unknownLabel x), t) ∧
      t.perform (.releaseSavepoint x) = (.error (.unknownLabel x), t) := by
  constructor
  · refine Transaction.perform_rollbackTo_none ?_
    cases hsp : t.savepoints[x]? with
    | none => rfl
    | some sp => exact absurd (contains_iff.2 ⟨sp, hsp⟩) hx
  · rw [Transaction.perform_releaseSavepoint, if_neg hx]

/-- **A return to a savepoint** leaves what was taken no later, and besides only what was taken after the same mutations.
The rest is unknown from then on. So it leaves exactly what was taken no later if and only if nothing that was taken later
was taken after the same mutations. -/
theorem later_savepoints_gone_iff (hs : start config ids journal = .ok s) (hw : (s.run es).writer = some t)
    (hname : t.savepoints.contains name) : ∃ t', t.perform (.rollbackTo name) = (.ok .done, t') ∧
      (∀ x sp, t'.savepoints[x]? = some sp ↔
        t.savepoints[x]? = some sp ∧ (NoLater es x name ∨ SameMutations s es x name)) ∧
      (∀ x, ¬ t'.savepoints.contains x → t'.perform (.rollbackTo x) = (.error (.unknownLabel x), t') ∧
        t'.perform (.releaseSavepoint x) = (.error (.unknownLabel x), t')) ∧
      ((∀ x, t'.savepoints.contains x ↔ t.savepoints.contains x ∧ NoLater es x name) ↔
        ∀ x, t.savepoints.contains x → ¬ NoLater es x name → ¬ SameMutations s es x name) := by
  obtain ⟨spn, hspn⟩ := contains_iff.1 hname
  have hleft : ∀ x sp, (t.savepoints.filter fun _ other => other.applied ≤ spn.applied)[x]? = some sp ↔
      t.savepoints[x]? = some sp ∧ (NoLater es x name ∨ SameMutations s es x name) := by
    intro x sp
    rw [ExtTreeMap.getElem?_filter', Option.filter_eq_some_iff, decide_eq_true_eq]
    exact and_congr_right fun hsp => applied_le_iff hs hw hsp hspn
  have hcontains : ∀ x, (t.savepoints.filter fun _ other => other.applied ≤ spn.applied).contains x ↔
      t.savepoints.contains x ∧ (NoLater es x name ∨ SameMutations s es x name) := by
    intro x
    simp only [contains_iff, hleft, exists_and_right]
  refine ⟨_, Transaction.perform_rollbackTo hspn, hleft, fun x hx => perform_unknown hx, ?_⟩
  constructor
  · intro hexact x hx hlater hsame
    exact hlater ((hexact x).1 ((hcontains x).2 ⟨hx, Or.inr hsame⟩)).2
  · intro hno x
    rw [hcontains]
    refine and_congr_right fun hx => ⟨fun hor => ?_, Or.inl⟩
    by_contra hlater
    exact hno x hx hlater (hor.resolve_left hlater)

/-- three savepoints, of which the second one was taken after the same mutations as the first, though some were recorded
and undone in between, and the third one after more -/
def twins : List Event :=
  [.begin, .perform (.putEntityType "person"), .perform (.savepoint "outline"), .perform (.putRole "child"),
    .perform (.rollbackTo "outline"), .perform (.putEntityType "person"), .perform (.savepoint "twin"),
    .perform (.putRole "parent"), .perform (.savepoint "sequel")]

set_option maxRecDepth 10000 in
theorem twin_left : ∃ t t', (blank.run twins).writer = some t ∧ t.savepoints.contains "outline" ∧
    t.perform (.rollbackTo "outline") = (.ok .done, t') ∧ (¬ NoLater twins "twin" "outline" ∧
      t'.savepoints.contains "twin") ∧ t.savepoints.contains "sequel" ∧ ¬ t'.savepoints.contains "sequel" := by
  have hlive : (blank.run twins).writer.map (fun t => ["outline", "twin", "sequel"].all t.savepoints.contains) =
      some true := by decide +kernel
  obtain ⟨t, hw, hall⟩ := Option.map_eq_some_iff.1 hlive
  simp only [List.all_cons, List.all_nil, Bool.and_true, Bool.and_eq_true] at hall
  obtain ⟨houtline, htwin, hsequel⟩ := hall
  obtain ⟨t', hback, hleft, -, -⟩ := later_savepoints_gone_iff start_testing hw houtline
  have ho : LastTaken "outline" twins 2 := by decide
  have ht : LastTaken "twin" twins 6 := by decide
  have hs : LastTaken "sequel" twins 8 := by decide
  have hmutations : ∀ k, k = 2 ∨ k = 6 → (blank.run (twins.take k)).writer.map Transaction.mutations =
      some [.defineType ⟨6⟩ "person" .entity ⟨2⟩] := by
    rintro k (rfl | rfl) <;> decide +kernel
  have hmore : (blank.run (twins.take 8)).writer.map (fun t => t.mutations.length) = some 2 := by decide +kernel
  obtain ⟨u, hu, hums⟩ := Option.map_eq_some_iff.1 (hmutations 2 (Or.inl rfl))
  obtain ⟨v, hv, hvms⟩ := Option.map_eq_some_iff.1 (hmutations 6 (Or.inr rfl))
  refine ⟨t, t', hw, houtline, hback, ⟨?_, ?_⟩, hsequel, ?_⟩
  · rintro ⟨k, l, hk, hl, hle⟩
    rw [hk.eq ht, hl.eq ho] at hle
    omega
  · obtain ⟨sp, hsp⟩ := contains_iff.1 htwin
    exact contains_iff.2 ⟨sp, (hleft _ _).2 ⟨hsp, Or.inr ⟨6, 2, v, u, ht, ho, hv, hu, hvms.trans hums.symm⟩⟩⟩
  · intro hcontains
    obtain ⟨sp, hsp⟩ := contains_iff.1 hcontains
    rcases ((hleft _ _).1 hsp).2 with ⟨k, l, hk, hl, hle⟩ | ⟨k, l, w, u', hk, hl, hw', hu', hsame⟩
    · rw [hk.eq hs, hl.eq ho] at hle
      omega
    · rw [hk.eq hs] at hw'
      rw [hl.eq ho, hu] at hu'
      rw [hw', Option.map_some, hsame, ← Option.some.inj hu', hums] at hmore
      simp at hmore

end ConceptGraph.Session
