/-
Savepoints restore exactly what they were taken of.

- `Holds`: a savepoint as it was taken in an earlier transaction `u`. The mutations of `u` are a prefix of those now.
- `Holds.perform`: it stays so through every operation after which the name still stands, unless the name is taken again.
- `Discards`: what puts an end to a savepoint. It is taken again, released, or a savepoint is returned to that was taken
  before it.
- `Unspent`: nothing of that has happened yet. As long as it has not, the savepoint stands (`Unspent.step`).
- `Session.savepoints_restore`: in any transaction of a session, to return to such a savepoint succeeds and brings back
  the working state and the mutations; and every savepoint that stands is the one last taken under its name.
-/
import ConceptGraph.Proofs.Transaction.EditContexts
import ConceptGraph.Proofs.Session.Runs

namespace ConceptGraph

open Std

namespace Operation

/-- whether the operation is on instances or types, and not on savepoints -/
theorem edits_or_savepoint (op : Operation) : (op.editsSchema ∨ op.editsGraph) ∨
    (∃ x, op = .savepoint x) ∨ (∃ x, op = .rollbackTo x) ∨ ∃ x, op = .releaseSavepoint x := by
  cases op with
  | savepoint x => exact Or.inr (Or.inl ⟨x, rfl⟩)
  | rollbackTo x => exact Or.inr (Or.inr (Or.inl ⟨x, rfl⟩))
  | releaseSavepoint x => exact Or.inr (Or.inr (Or.inr ⟨x, rfl⟩))
  | createEntity | createRelation | putAttribute | addRolePlayer | removeRolePlayer | setHas | unsetHas | deleteThing =>
    exact Or.inl (Or.inr rfl)
  | _ => exact Or.inl (Or.inl rfl)

end Operation

namespace Transaction

variable {t u : Transaction} {name x : String} {sp : Savepoint} {op : Operation}

/-! ## Operations on savepoints -/

theorem perform_savepoint (t : Transaction) (x : String) : t.perform (.savepoint x) =
    (.ok .done, { t with savepoints := t.savepoints.insert x ⟨t.working, t.mutations.length⟩ }) := rfl

theorem perform_rollbackTo (h : t.savepoints[x]? = some sp) : t.perform (.rollbackTo x) = (.ok .done,
    { t with
      working := sp.state
      mutations := t.mutations.take sp.applied
      savepoints := t.savepoints.filter fun _ other => other.applied ≤ sp.applied }) := by
  show outcome ((fun _ => Reply.done) <$> rollbackTo x) t = _
  rw [outcome_map, outcome_rollbackTo, h]
  rfl

theorem perform_rollbackTo_none (h : t.savepoints[x]? = none) :
    t.perform (.rollbackTo x) = (.error (.unknownLabel x), t) := by
  show outcome ((fun _ => Reply.done) <$> rollbackTo x) t = _
  rw [outcome_map, outcome_rollbackTo, h]
  rfl

theorem perform_releaseSavepoint (t : Transaction) (x : String) : t.perform (.releaseSavepoint x) =
    if t.savepoints.contains x then (.ok .done, { t with savepoints := t.savepoints.erase x })
    else (.error (.unknownLabel x), t) := by
  show outcome ((fun _ => Reply.done) <$> releaseSavepoint x) t = _
  rw [outcome_map, outcome_releaseSavepoint]
  split <;> rfl

/-- edits of types and instances leave the savepoints alone and only add mutations, also where they are refused -/
theorem perform_edit (hop : op.editsSchema ∨ op.editsGraph) (t : Transaction) :
    (t.perform op).2.savepoints = t.savepoints ∧ t.mutations <+: (t.perform op).2.mutations := by
  obtain ⟨-, hsp, ms, hms⟩ := (Operation.oblivious hop).carries t
  rw [perform_eq]
  exact ⟨hsp, ms, hms.symm⟩

/-! ## One savepoint -/

/-- under the name stands what the working state of `u` was, and the mutations go on from those of `u` -/
structure Holds (name : String) (u t : Transaction) : Prop where
  stands : t.savepoints[name]? = some ⟨u.working, u.mutations.length⟩
  since : u.mutations <+: t.mutations

/-- to take a savepoint is to hold it -/
theorem holds_savepoint (u : Transaction) (name : String) : Holds name u (u.perform (.savepoint name)).2 := by
  rw [perform_savepoint]
  exact ⟨by rw [lookup_insert, if_pos rfl], List.prefix_refl _⟩

/-- what stands under a name after an operation stood there before, unless it has just been taken -/
theorem stood_before (hop : op ≠ .savepoint name) (h : (t.perform op).2.savepoints[name]? = some sp) :
    t.savepoints[name]? = some sp := by
  rcases op.edits_or_savepoint with hedit | ⟨x, rfl⟩ | ⟨x, rfl⟩ | ⟨x, rfl⟩
  · rwa [(perform_edit hedit t).1] at h
  · have hne : name ≠ x := fun he => hop (he ▸ rfl)
    rwa [perform_savepoint, lookup_insert, if_neg hne] at h
  · cases hx : t.savepoints[x]? with
    | none => rwa [perform_rollbackTo_none hx] at h
    | some spx =>
      rw [perform_rollbackTo hx, ExtTreeMap.getElem?_filter'] at h
      exact Option.eq_some_of_filter_eq_some h
  · rw [perform_releaseSavepoint] at h
    split at h
    · rw [lookup_erase] at h
      split at h
      · simp at h
      · exact h
    · exact h

/-- **A savepoint that still stands** after an operation is as it was, and its mutations are still a prefix. -/
theorem Holds.perform (h : Holds name u t) (hop : op ≠ .savepoint name)
    (hstands : (t.perform op).2.savepoints.contains name) : Holds name u (t.perform op).2 := by
  obtain ⟨sp, hsp⟩ := contains_iff.1 hstands
  obtain rfl := Option.some.inj (h.stands.symm.trans (stood_before hop hsp))
  refine ⟨hsp, ?_⟩
  rcases op.edits_or_savepoint with hedit | ⟨x, rfl⟩ | ⟨x, rfl⟩ | ⟨x, rfl⟩
  · exact h.since.trans (perform_edit hedit t).2
  · exact h.since
  · cases hx : t.savepoints[x]? with
    | none =>
      rw [perform_rollbackTo_none hx]
      exact h.since
    | some spx =>
      -- the mutations are cut off after those of a savepoint that has at least as many
      rw [perform_rollbackTo hx, ExtTreeMap.getElem?_filter', h.stands] at hsp
      rw [perform_rollbackTo hx]
      have hle : u.mutations.length ≤ spx.applied := by simpa using hsp
      exact List.prefix_take_iff.2 ⟨h.since, hle⟩
  · rw [perform_releaseSavepoint]
    split <;> exact h.since

/-! ## The end of a savepoint -/

end Transaction

namespace Operation

/-- the operation takes the savepoint again, releases it, or returns to one that was taken before it; `later` are the
names under which savepoints have been taken since -/
def Discards (name : String) (later : List String) (t : Transaction) : Operation → Prop
  | .savepoint x | .releaseSavepoint x => x = name
  | .rollbackTo x => x ≠ name ∧ x ∉ later ∧ t.savepoints.contains x
  | _ => False

instance (name : String) (later : List String) (t : Transaction) (op : Operation) :
    Decidable (op.Discards name later t) := by
  cases op <;> unfold Discards <;> infer_instance

/-- the savepoint that the operation takes -/
def takes : Operation → List String
  | .savepoint x => [x]
  | _ => []

end Operation

namespace Transaction

variable {t u : Transaction} {name : String} {op : Operation} {later : List String}

/-- a savepoint of `u` stands, and those that were taken since come after it -/
structure Unspent (name : String) (u : Transaction) (later : List String) (t : Transaction) : Prop where
  holds : Holds name u t
  after : ∀ x ∈ later, ∀ sp, t.savepoints[x]? = some sp → u.mutations.length ≤ sp.applied

theorem unspent_savepoint (u : Transaction) (name : String) : Unspent name u [] (u.perform (.savepoint name)).2 :=
  ⟨holds_savepoint u name, nofun⟩

/-- **A savepoint stands** until something puts an end to it. -/
theorem Unspent.contains (h : Unspent name u later t) (hop : ¬ op.Discards name later t) :
    (t.perform op).2.savepoints.contains name := by
  have hname := h.holds.stands
  refine contains_iff.2 ⟨⟨u.working, u.mutations.length⟩, ?_⟩
  rcases op.edits_or_savepoint with hedit | ⟨x, rfl⟩ | ⟨x, rfl⟩ | ⟨x, rfl⟩
  · rwa [(perform_edit hedit t).1]
  · rw [perform_savepoint, lookup_insert, if_neg fun he => hop he.symm, hname]
  · cases hx : t.savepoints[x]? with
    | none => rwa [perform_rollbackTo_none hx]
    | some sp =>
      -- the savepoint that is returned to is this one, or was taken later
      have hle : u.mutations.length ≤ sp.applied := by
        by_cases hxn : x = name
        · rw [hxn, hname] at hx
          exact Nat.le_of_eq (congrArg Savepoint.applied (Option.some.inj hx))
        · refine h.after x (by_contra fun hlater => hop ⟨hxn, hlater, contains_iff.2 ⟨sp, hx⟩⟩) sp hx
      rw [perform_rollbackTo hx, ExtTreeMap.getElem?_filter', hname]
      simpa using hle
  · rw [perform_releaseSavepoint]
    split
    · rwa [lookup_erase, if_neg fun he => hop he.symm]
    · exact hname

/-- **One operation** that does not put an end to the savepoint -/
theorem Unspent.perform (h : Unspent name u later t) (hop : ¬ op.Discards name later t) :
    Unspent name u (later ++ op.takes) (t.perform op).2 := by
  have hne : op ≠ .savepoint name := by
    rintro rfl
    exact hop rfl
  refine ⟨h.holds.perform hne (h.contains hop), fun x hx sp hsp => ?_⟩
  by_cases htake : op = .savepoint x
  · -- it has just been taken, after all mutations
    subst htake
    rw [perform_savepoint, lookup_insert, if_pos rfl] at hsp
    rw [← Option.some.inj hsp]
    exact h.holds.since.length_le
  · refine h.after x ?_ sp (stood_before htake hsp)
    rcases List.mem_append.1 hx with hx | hx
    · exact hx
    · cases op with
      | savepoint y => exact absurd (congrArg Operation.savepoint (List.mem_singleton.1 hx).symm) htake
      | _ => cases hx

/-- **To return to it** brings back what there was, any number of times. -/
theorem Holds.rollbackTo (h : Holds name u t) : ∃ t', t.perform (.rollbackTo name) = (.ok .done, t') ∧
    t'.working = u.working ∧ t'.mutations = u.mutations ∧ t'.perform (.rollbackTo name) = (.ok .done, t') := by
  refine ⟨_, perform_rollbackTo h.stands, rfl, (List.prefix_iff_eq_take.1 h.since).symm, ?_⟩
  have hstill : (t.savepoints.filter fun _ other => other.applied ≤ u.mutations.length)[name]? =
      some ⟨u.working, u.mutations.length⟩ := by simp [h.stands]
  have hfilter : ∀ m : ExtTreeMap String Savepoint, (m.filter fun _ other => other.applied ≤ u.mutations.length).filter
      (fun _ other => other.applied ≤ u.mutations.length) = m.filter fun _ other => other.applied ≤ u.mutations.length := by
    intro m
    ext x
    simp [Option.filter_filter]
  rw [perform_rollbackTo hstill]
  simp only [hfilter, List.take_take, Nat.min_self]

end Transaction

/-! ## Sessions -/

namespace Event

/-- whether the event puts an end to the open transaction -/
def closes : Event → Bool
  | .commit _ | .rollback => true
  | _ => false

/-- the savepoint that the event takes -/
def takes : Event → List String
  | .perform op => op.takes
  | _ => []

end Event

namespace Session

variable {s : Session} {t u : Transaction} {name : String} {later : List String} {e : Event} {es : List Event}

/-- the event puts an end to the savepoint, by an operation or together with the transaction -/
def Discards (name : String) (later : List String) (s : Session) : Event → Prop
  | .perform op => ∃ t ∈ s.writer, op.Discards name later t
  | e => e.closes

instance (name : String) (later : List String) (s : Session) (e : Event) : Decidable (s.Discards name later e) := by
  cases e <;> unfold Discards <;> infer_instance

/-- no event of the run puts an end to the savepoint -/
def Spares (name : String) (later : List String) (s : Session) : List Event → Prop
  | [] => True
  | e :: es => ¬ s.Discards name later e ∧ (s.step e).Spares name (later ++ e.takes) es

instance decidableSpares (name : String) : ∀ later s es, Decidable (Spares name later s es)
  | _, _, [] => isTrue trivial
  | later, s, e :: es =>
    have := decidableSpares name (later ++ e.takes) (s.step e) es
    inferInstanceAs (Decidable (_ ∧ _))

/-- an event other than an operation leaves the open transaction as it is, but for its identifiers, or ends it -/
theorem writer_step (hw : s.writer = some t) (he : ∀ op, e ≠ .perform op) (hopen : ¬ e.closes) :
    ∃ ids, (s.step e).writer = some { t with ids := ids } := by
  cases e with
  | begin =>
    rw [step_begin hw]
    exact ⟨t.ids, hw⟩
  | perform op => exact absurd rfl (he op)
  | commit | rollback => exact absurd rfl hopen
  | rejectNextCommit => exact ⟨t.ids, hw⟩
  | drawElsewhere count =>
    rw [step_drawElsewhere hw]
    exact ⟨_, rfl⟩

/-- no transaction is open after it has been ended -/
theorem writer_closed (he : e.closes) : (s.step e).writer = none := by
  cases hw : s.writer with
  | none =>
    cases e with
    | commit now => rwa [step_commit_idle hw]
    | rollback => rwa [step_rollback_idle hw]
    | _ => cases he
  | some t =>
    cases e with
    | commit now =>
      rw [step_commit hw]
      exact (s.finish_cases t now).1
    | rollback =>
      rw [step_rollback hw]
      rfl
    | _ => cases he

/-! ## From a savepoint on -/

/-- **One event** that does not put an end to the savepoint -/
theorem unspent_step (hw : s.writer = some t) (h : Transaction.Unspent name u later t) (he : ¬ s.Discards name later e) :
    ∃ t', (s.step e).writer = some t' ∧ Transaction.Unspent name u (later ++ e.takes) t' := by
  by_cases hop : ∃ op, e = .perform op
  · obtain ⟨op, rfl⟩ := hop
    rw [step_perform hw]
    exact ⟨_, rfl, h.perform fun hd => he ⟨t, hw, hd⟩⟩
  · have hno : ∀ op, e ≠ .perform op := fun op heq => hop ⟨op, heq⟩
    have hopen : ¬ e.closes := by
      cases e with
      | perform op => exact absurd rfl (hno op)
      | _ => exact he
    have htakes : e.takes = [] := by
      cases e with
      | perform op => exact absurd rfl (hno op)
      | _ => rfl
    obtain ⟨ids, hw'⟩ := writer_step hw hno hopen
    rw [htakes, List.append_nil]
    exact ⟨_, hw', ⟨h.holds.stands, h.holds.since⟩, h.after⟩

/-- **Any events** that do not put an end to the savepoint -/
theorem unspent_run (hw : s.writer = some t) (h : Transaction.Unspent name u later t) (hes : s.Spares name later es) :
    ∃ t', (s.run es).writer = some t' ∧ Transaction.Holds name u t' := by
  induction es generalizing s t later with
  | nil => exact ⟨t, hw, h.holds⟩
  | cons e es ih =>
    obtain ⟨t', hw', h'⟩ := unspent_step hw h hes.1
    exact ih hw' h' hes.2

/-! ## Back to a savepoint -/

/-- a transaction that has just been opened has no savepoints -/
theorem writer_opened {t' : Transaction} (hw : s.writer = none) (hw' : (s.step e).writer = some t') :
    t'.savepoints = ∅ := by
  by_cases he : e = .begin
  · rw [he, step_begin_idle hw] at hw'
    obtain rfl := Option.some.inj hw'
    rfl
  · rw [writer_step_idle hw he] at hw'
    cases hw'

/-- a savepoint that stands after an event has just been taken, or stood before it -/
theorem stood_before_step {t' : Transaction} (hw' : (s.step e).writer = some t')
    (hstands : t'.savepoints.contains name) : ∃ t, s.writer = some t ∧
      (e = .perform (.savepoint name) ∧ Transaction.Holds name t t' ∨
        (¬ e.closes ∧ name ∉ e.takes) ∧ t.savepoints.contains name ∧
          ∀ u, Transaction.Holds name u t → Transaction.Holds name u t') := by
  cases hw : s.writer with
  | none =>
    rw [writer_opened hw hw'] at hstands
    simp at hstands
  | some t =>
    refine ⟨t, rfl, ?_⟩
    by_cases hop : ∃ op, e = .perform op
    · obtain ⟨op, rfl⟩ := hop
      rw [step_perform hw] at hw'
      obtain rfl := Option.some.inj hw'
      by_cases htake : op = .savepoint name
      · subst htake
        exact Or.inl ⟨rfl, Transaction.holds_savepoint t name⟩
      · refine Or.inr ⟨⟨nofun, fun hname => htake ?_⟩, ?_, fun u hu => hu.perform htake hstands⟩
        · cases op with
          | savepoint x => exact congrArg Operation.savepoint (List.mem_singleton.1 hname).symm
          | _ => cases hname
        · obtain ⟨sp, hsp⟩ := contains_iff.1 hstands
          exact contains_iff.2 ⟨sp, Transaction.stood_before htake hsp⟩
    · have hno : ∀ op, e ≠ .perform op := fun op heq => hop ⟨op, heq⟩
      have hopen : ¬ e.closes := fun hc => by simp [writer_closed hc] at hw'
      obtain ⟨ids, hids⟩ := writer_step hw hno hopen
      obtain rfl := Option.some.inj (hids.symm.trans hw')
      refine Or.inr ⟨⟨hopen, ?_⟩, hstands, fun u hu => ⟨hu.stands, hu.since⟩⟩
      cases e with
      | perform op => exact absurd rfl (hno op)
      | _ => exact List.not_mem_nil

variable {config : SessionConfig} {ids : Option IdSource} {journal : Option Journal}

/-- **A savepoint that stands** is the one that was last taken under its name, in the same transaction. -/
theorem last_taken (hs : start config ids journal = .ok s) (hw : (s.run es).writer = some t)
    (hstands : t.savepoints.contains name) : ∃ p q u, es = p ++ .perform (.savepoint name) :: q ∧
      (∀ e ∈ q, ¬ e.closes ∧ name ∉ e.takes) ∧ (s.run p).writer = some u ∧ Transaction.Holds name u t := by
  induction es using List.reverseRecOn generalizing t with
  | nil =>
    rw [run, List.foldl_nil, (start_spec hs).2.1] at hw
    cases hw
  | append_singleton es e ih =>
    rw [run_concat] at hw
    obtain ⟨t₀, hw₀, ⟨rfl, hholds⟩ | ⟨he, hstood, hkeep⟩⟩ := stood_before_step hw hstands
    · exact ⟨es, [], t₀, rfl, fun e he => absurd he List.not_mem_nil, hw₀, hholds⟩
    · obtain ⟨p, q, u, rfl, hq, hwu, hholds⟩ := ih hw₀ hstood
      refine ⟨p, q ++ [e], u, by simp, fun e' he' => ?_, hwu, hkeep u hholds⟩
      rcases List.mem_append.1 he' with he' | he'
      · exact hq e' he'
      · obtain rfl := List.mem_singleton.1 he'
        exact he

/-- **Savepoints restore exactly.** In any transaction that a session gets to, a savepoint that is taken can be returned to
for as long as no event puts an end to it, again and again, and the working state and the mutations are then what they
were when it was taken. And at any time, what stands under a name was taken there last, in the same transaction, and the
mutations of that time are a prefix of those now. -/
theorem savepoints_restore (hs : start config ids journal = .ok s) (hw : (s.run es).writer = some t) :
    (∀ name es', ((s.run es).step (.perform (.savepoint name))).Spares name [] es' →
      ∃ t' t'', (s.run (es ++ .perform (.savepoint name) :: es')).writer = some t' ∧
        t'.perform (.rollbackTo name) = (.ok .done, t'') ∧ t''.working = t.working ∧ t''.mutations = t.mutations ∧
        t''.perform (.rollbackTo name) = (.ok .done, t'')) ∧
    ∀ name sp, t.savepoints[name]? = some sp → ∃ p q u, es = p ++ .perform (.savepoint name) :: q ∧
      (∀ e ∈ q, ¬ e.closes ∧ name ∉ e.takes) ∧ (s.run p).writer = some u ∧ sp.state = u.working ∧
      sp.applied = u.mutations.length ∧ u.mutations <+: t.mutations := by
  constructor
  · intro name es' hspares
    have htaken : ((s.run es).step (.perform (.savepoint name))).writer = some (t.perform (.savepoint name)).2 := by
      rw [step_perform hw]
    obtain ⟨t', hw', hholds⟩ := unspent_run htaken (Transaction.unspent_savepoint t name) hspares
    obtain ⟨t'', hback⟩ := hholds.rollbackTo
    rw [run_append, run_cons]
    exact ⟨t', t'', hw', hback⟩
  · intro name sp hsp
    obtain ⟨p, q, u, hes, hq, hwu, hholds⟩ := last_taken hs hw (contains_iff.2 ⟨sp, hsp⟩)
    obtain rfl := Option.some.inj (hholds.stands.symm.trans hsp)
    exact ⟨p, q, u, hes, hq, hwu, rfl, rfl, hholds.since⟩

/-- a type, and a savepoint before it -/
def outline : List Event :=
  [.begin, .perform (.savepoint "blank"), .perform (.putEntityType "person")]

/-- from a second savepoint on: others are taken, returned to and released, and some operations are refused -/
def drafts : List Event :=
  [.perform (.putAttributeType "name" (some .string)), .perform (.savepoint "named"), .perform (.has ⟨6⟩ ⟨7⟩),
    .perform (.rollbackTo "named"), .perform (.setLabel ⟨6⟩ "@"), .perform (.rollbackTo "outline"),
    .perform (.rollbackTo "named"), .perform (.putRole "child"), .perform (.savepoint "blank"),
    .perform (.createEntity ⟨6⟩), .perform (.rollbackTo "blank"), .perform (.releaseSavepoint "blank"),
    .perform (.deleteType ⟨6⟩)]

set_option maxRecDepth 10000 in
theorem drafts_discarded : ((blank.run outline).step (.perform (.savepoint "outline"))).Spares "outline" [] drafts ∧
    ∃ t, (blank.run outline).writer = some t ∧ t.mutations = [.defineType ⟨6⟩ "person" .entity ⟨2⟩] ∧
      ∃ t' t'', (blank.run (outline ++ .perform (.savepoint "outline") :: drafts)).writer = some t' ∧
        t'.mutations ≠ t.mutations ∧ t'.perform (.rollbackTo "outline") = (.ok .done, t'') ∧
        t''.working = t.working ∧ t''.mutations = t.mutations := by
  have hspares : ((blank.run outline).step (.perform (.savepoint "outline"))).Spares "outline" [] drafts := by
    decide +kernel
  have hbefore : (blank.run outline).writer.map Transaction.mutations =
      some [.defineType ⟨6⟩ "person" .entity ⟨2⟩] := by decide +kernel
  have hafter : (blank.run (outline ++ .perform (.savepoint "outline") :: drafts)).writer.map
      (fun t => t.mutations.length) = some 3 := by decide +kernel
  obtain ⟨t, hw, hms⟩ := Option.map_eq_some_iff.1 hbefore
  obtain ⟨t', t'', hw', hback, hworking, hmutations, -⟩ :=
    (savepoints_restore start_testing hw).1 "outline" drafts hspares
  refine ⟨hspares, t, hw, hms, t', t'', hw', fun heq => ?_, hback, hworking, hmutations⟩
  rw [hw', Option.map_some, heq, hms] at hafter
  simp at hafter

end Session

end ConceptGraph
