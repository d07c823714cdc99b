/-
Declarations that are withdrawn. A type may stop to let instances play a role, have players in it or own an attribute
type, unless an instance needs that.

- `withoutPlays`, `withoutRelates`, `withoutOwns`: the transaction without the declaration.
- `Withdraws`: an operation is refused if what it withdraws is needed, and otherwise leads to the given transaction.
- `Session.withdrawn_unless_needed`: so it is with all three in every transaction that a session gets to.
-/
import ConceptGraph.Proofs.Keys.KeptKeys

namespace ConceptGraph

namespace Transaction

open State

variable {first : UInt64} {n : Nat} {t t' : Transaction} {a role owned : TypeId} {d e : TypeDef} {op : Operation}
  {needed : Prop}

/-! ## Withdrawals -/

/-- the transaction with one definition given anew, and with that noted -/
def redefine (t : Transaction) (a : TypeId) (d : TypeDef) (m : Mutation) : Transaction :=
  { t.withSchema (t.working.schema.redefine a d) with mutations := t.mutations ++ [m] }

/-- without the declaration, if there is one, that instances of the type may play the role -/
def withoutPlays (t : Transaction) (a role : TypeId) (d : TypeDef) : Transaction :=
  if d.plays.contains role then t.redefine a { d with plays := d.plays.erase role } (.unplay a role) else t

/-- without the declaration, if there is one, that relations of the type may have players in the role -/
def withoutRelates (t : Transaction) (a role : TypeId) (d : TypeDef) : Transaction :=
  if d.relatesRole role then t.redefine a (d.changeRelates (·.erase role)) (.unrelate a role) else t

/-- without the declaration, if there is one, that instances of the type may hold attributes of the other: they play the
owner's role in its record no longer, either -/
def withoutOwns (t : Transaction) (a owned : TypeId) (d : TypeDef) : Transaction :=
  match t.working.schema.implicitForOwned? owned with
  | some r =>
    if d.owns.contains owned then
      t.redefine a { d with owns := d.owns.erase owned, plays := d.plays.erase r.ownerRole } (.unhas a owned)
    else t
  | none => t

/-- an operation is refused, and changes nothing, exactly if what it withdraws is needed; otherwise it leads to `t'` -/
structure Withdraws (t : Transaction) (op : Operation) (needed : Prop) (t' : Transaction) : Prop where
  refused : Decides (t.perform op).1 .inUseConstraint needed
  unchanged : needed → (t.perform op).2 = t
  done : ¬ needed → t.perform op = (.ok .done, t')

/-- the rule comes first, and then the change -/
theorem Withdraws.of_check {check : State → Except ConceptError Unit} {k : Unit → Edit Unit}
    (hperf : op.perform = (fun _ => Reply.done) <$> (ask check >>= k))
    (hc : Decides (check t.working) .inUseConstraint needed) (hk : outcome (k ()) t = (.ok (), t')) :
    t.Withdraws op needed t' := by
  rcases hc.cases with ⟨u, hr, hno⟩ | ⟨err, hr, hkind, hneeded⟩
  · have hout := perform_allowed hperf hr hk
    exact ⟨.of_ok (congrArg Prod.fst hout) hno, fun hp => absurd hp hno, fun _ => hout⟩
  · have hout := perform_refused hperf hr
    exact ⟨.of_error (congrArg Prod.fst hout) hkind hneeded, fun _ => congrArg Prod.snd hout,
      fun hno => absurd hneeded hno⟩

theorem outcome_change {f : TypeDef → TypeDef} {m : Mutation} (hd : t.working.schema.get? a = some d) :
    outcome (do editSchema fun schema => schema.change a f; record m) t = (.ok (), t.redefine a (f d) m) := by
  rw [outcome_bind, outcome_editSchema, Schema.change_eq_ok.2 ⟨d, hd, rfl⟩]
  rfl

section Sound

variable (h : t.Sound first n) (he : t.working.Editable a d)

include h he

theorem unplay_withdraws (hkind : d.kind ≠ .role) (hr : t.working.Editable role e) (hrole : e.kind = .role) :
    t.Withdraws (.unplay a role) (t.working.NeedsPlays a role) (t.withoutPlays a role d) := by
  refine .of_check rfl (checkUnplay_decides h.working he hkind hr hrole) ?_
  rw [outcome_allowed (Schema.require_eq_ok.2 he.1), withoutPlays]
  split
  · exact outcome_change he.1
  · rfl

theorem unrelate_withdraws (hkind : d.kind = .relation) (hr : t.working.Editable role e) (hrole : e.kind = .role) :
    t.Withdraws (.unrelate a role) (t.working.NeedsRelates a role) (t.withoutRelates a role d) := by
  refine .of_check rfl (checkUnrelate_decides h.working he hkind hr hrole) ?_
  rw [outcome_allowed (Schema.require_eq_ok.2 he.1), withoutRelates]
  split
  · exact outcome_change he.1
  · rfl

theorem unhas_withdraws (hkind : d.kind ≠ .role) (ho : t.working.Editable owned e) (hk : e.kind = .attribute) :
    t.Withdraws (.unhas a owned) (t.working.NeedsOwns a owned) (t.withoutOwns a owned d) := by
  refine .of_check rfl (checkUnhas_decides h.working he hkind ho hk) ?_
  rw [outcome_bind, outcome_look]
  dsimp only
  rw [outcome_allowed (Schema.require_eq_ok.2 he.1), withoutOwns]
  split
  · rename_i hcontains
    obtain ⟨r, hrec, rfl⟩ := h.working.recorded.owned a owned ⟨d, he.1, hcontains⟩
    have hlook : t.working.schema.implicitForOwned? r.owned = some r := hrec
    simp only [hlook]
    exact outcome_change he.1
  · cases t.working.schema.implicitForOwned? owned <;> rfl

end Sound

end Transaction

namespace Session

open State Transaction

variable {config : SessionConfig} {ids : Option IdSource} {journal : Option Journal} {s : Session} {es : List Event}
  {t : Transaction} {a : TypeId} {d : TypeDef}

/-- **A declaration is withdrawn** unless an instance needs it, and nothing else is changed. -/
theorem withdrawn_unless_needed (hs : start config ids journal = .ok s) (hfit : s.issued es < 2 ^ 64)
    (hw : (s.run es).writer = some t) (he : t.working.Editable a d) :
    (∀ role e, d.kind ≠ .role → t.working.Editable role e → e.kind = .role →
      t.Withdraws (.unplay a role) (t.working.NeedsPlays a role) (t.withoutPlays a role d)) ∧
    (∀ role e, d.kind = .relation → t.working.Editable role e → e.kind = .role →
      t.Withdraws (.unrelate a role) (t.working.NeedsRelates a role) (t.withoutRelates a role d)) ∧
    ∀ owned e, d.kind ≠ .role → t.working.Editable owned e → e.kind = .attribute →
      t.Withdraws (.unhas a owned) (t.working.NeedsOwns a owned) (t.withoutOwns a owned d) := by
  have h := (run_sound hs hfit (List.prefix_refl _)).writer hw
  exact ⟨fun role e hkind hr hrole => unplay_withdraws h he hkind hr hrole,
    fun role e hkind hr hrole => unrelate_withdraws h he hkind hr hrole,
    fun owned e hkind ho hk => unhas_withdraws h he hkind ho hk⟩

/-- an employee, who as a person may work in jobs, which may have workers, and works in one; and who may have a name both
as a person and as an employee, and has one -/
def employedPerson : List Event :=
  [.begin, .perform (.putEntityType "person"), .perform (.putEntityType "employee"), .perform (.setSupertype ⟨7⟩ ⟨6⟩),
    .perform (.putRelationType "job"), .perform (.putRole "worker"), .perform (.plays ⟨6⟩ ⟨9⟩),
    .perform (.relates ⟨8⟩ ⟨9⟩), .perform (.putAttributeType "name" (some .string)), .perform (.has ⟨6⟩ ⟨10⟩),
    .perform (.has ⟨7⟩ ⟨10⟩), .perform (.createEntity ⟨7⟩), .perform (.createRelation ⟨8⟩),
    .perform (.addRolePlayer ⟨15⟩ ⟨9⟩ ⟨14⟩), .perform (.putAttribute ⟨10⟩ (.string "x")), .perform (.setHas ⟨14⟩ ⟨16⟩)]

set_option maxRecDepth 10000 in
/-- the work needs both of its declarations; the name does not need that of the person, as an employee may have one too -/
theorem employedPerson_withdrawn_unless_needed : blank.issued employedPerson < 2 ^ 64 ∧
    ∃ t d, (blank.run employedPerson).writer = some t ∧ t.working.schema.get? ⟨6⟩ = some d ∧
      t.working.NeedsPlays ⟨6⟩ ⟨9⟩ ∧ (t.perform (.unplay ⟨6⟩ ⟨9⟩)).2 = t ∧
      t.working.NeedsRelates ⟨8⟩ ⟨9⟩ ∧ (t.perform (.unrelate ⟨8⟩ ⟨9⟩)).2 = t ∧
      ¬ t.working.NeedsOwns ⟨6⟩ ⟨10⟩ ∧ t.perform (.unhas ⟨6⟩ ⟨10⟩) = (.ok .done, t.withoutOwns ⟨6⟩ ⟨10⟩ d) := by
  have hfit : blank.issued employedPerson < 2 ^ 64 := by decide +kernel
  have hfound : (blank.run employedPerson).writer.map (fun t =>
      ((t.working.editableThingType ⟨6⟩).toOption.isSome, (t.working.editable ⟨8⟩ .relation).toOption.isSome,
        (t.working.editable ⟨9⟩ .role).toOption.isSome, (t.working.editable ⟨10⟩ .attribute).toOption.isSome)) =
          some (true, true, true, true) := by decide +kernel
  have hanswers : (blank.run employedPerson).writer.map (fun t =>
      ((t.perform (.unplay ⟨6⟩ ⟨9⟩)).1.toOption, (t.perform (.unrelate ⟨8⟩ ⟨9⟩)).1.toOption,
        (t.perform (.unhas ⟨6⟩ ⟨10⟩)).1.toOption)) = some (none, none, some .done) := by decide +kernel
  obtain ⟨t, hw, ht⟩ := Option.map_eq_some_iff.1 hfound
  simp only [Prod.mk.injEq, Option.isSome_iff_exists, toOption_eq_some, editableThingType_eq_ok, editable_eq_ok] at ht
  obtain ⟨⟨person, hperson, hthing⟩, ⟨job, hjob, hrel⟩, ⟨worker, hworker, hrole⟩, name, hname, hattr⟩ := ht
  simp only [hw, Option.map_some, Option.some.injEq, Prod.mk.injEq, toOption_eq_some, toOption_eq_none] at hanswers
  obtain ⟨⟨_, hunplay⟩, ⟨_, hunrelate⟩, hunhas⟩ := hanswers
  obtain ⟨hplays, -, howns⟩ := withdrawn_unless_needed start_testing hfit hw hperson
  have hp := hplays _ _ hthing hworker hrole
  have hr := (withdrawn_unless_needed start_testing hfit hw hjob).2.1 _ _ hrel hworker hrole
  have ho := howns _ _ hthing hname hattr
  have hplaysNeeded := not_not.1 (mt hp.refused.kept.2 (by simp [hunplay]))
  have hrelatesNeeded := not_not.1 (mt hr.refused.kept.2 (by simp [hunrelate]))
  have hfree := ho.refused.kept.1 ⟨_, hunhas⟩
  exact ⟨hfit, t, person, hw, hperson.1, hplaysNeeded, hp.unchanged hplaysNeeded, hrelatesNeeded,
    hr.unchanged hrelatesNeeded, hfree, ho.done hfree⟩

end Session

end ConceptGraph
