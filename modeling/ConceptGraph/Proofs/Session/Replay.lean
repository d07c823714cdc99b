/-
The mutations of a transaction say what has been done in it: whoever makes the same steps again, each by the operation
that its mutation names, gets to the same state with the same identifiers. So types that record ownerships can be left
out of the mutations; they follow from the declarations.

- `redo`, `redoAll`: the steps that mutations name, made again.
- `Redone`: what has been done to a transaction can be done again. This is so of nothing, and of one thing after the
  other, since edits do not look back (`Redone.trans`).
- `perform_redone`: it is so of each operation that is done but to return to a savepoint.
- `Session.replay_faithful`: and so of a whole transaction, from any session on the same committed state.
-/
import ConceptGraph.Proofs.Transaction.EditContexts
import ConceptGraph.Proofs.Transaction.NewAttributeTypes
import ConceptGraph.Proofs.Session.Publishing
import ConceptGraph.Proofs.Transaction.Recording

namespace ConceptGraph

namespace Transaction

variable {t t' t'' u u' : Transaction} {m : Mutation} {ms ms' : List Mutation} {first : UInt64} {n : Nat}

/-! ## Steps made again -/

/-- makes the step of the mutation -/
def redo (m : Mutation) : Edit Reply := do (m.operation (← look State.schema)).perform

/-- makes the steps of the mutations, in order -/
def redoAll (ms : List Mutation) : Edit (List Reply) := ms.mapM redo

theorem outcome_redo (m : Mutation) (t : Transaction) :
    outcome (redo m) t = t.perform (m.operation t.working.schema) := rfl

theorem outcome_redoAll_nil (t : Transaction) : outcome (redoAll []) t = (.ok [], t) := rfl

theorem outcome_redoAll_cons {r : Reply} {rs : List Reply} (h : outcome (redo m) t = (.ok r, t'))
    (h' : outcome (redoAll ms) t' = (.ok rs, t'')) : outcome (redoAll (m :: ms)) t = (.ok (r :: rs), t'') :=
  outcome_mapM_cons.2 ⟨r, rs, t', h, h', rfl⟩

theorem outcome_redoAll_append {rs rs' : List Reply} (h : outcome (redoAll ms) t = (.ok rs, t'))
    (h' : outcome (redoAll ms') t' = (.ok rs', t'')) : outcome (redoAll (ms ++ ms')) t = (.ok (rs ++ rs'), t'') := by
  rw [redoAll, List.mapM_append]
  exact outcome_bind_eq_ok.2 ⟨rs, t', h, outcome_bind_eq_ok.2 ⟨rs', t'', h', rfl⟩⟩

theorem oblivious_redo (m : Mutation) : Oblivious (redo m) :=
  .look fun schema => Operation.oblivious (m.operation_edits schema)

theorem oblivious_redoAll (ms : List Mutation) : Oblivious (redoAll ms) := by
  induction ms with
  | nil => exact .pure []
  | cons m ms ih =>
    rw [redoAll, List.mapM_cons]
    exact (oblivious_redo m).bind fun _ => ih.bind fun _ => .pure _

/-- the steps that were recorded between the two transactions lead from the one to the other -/
def Redone (t t' : Transaction) : Prop := ∃ ms u, t'.mutations = t.mutations ++ ms ∧
  outcome (redoAll ms) t = (.ok (ms.map Mutation.answer), u) ∧ t'.Alike u

theorem Redone.of_alike (h : t'.Alike t) : Redone t t' := ⟨[], t, by rw [List.append_nil, h.mutations], rfl, h⟩

/-- **One thing after the other** can be done again if each can. -/
theorem Redone.trans (h : Redone t t') (h' : Redone t' t'') : Redone t t'' := by
  obtain ⟨ms, u, hms, hout, halike⟩ := h
  obtain ⟨ms', u', hms', hout', halike'⟩ := h'
  -- the later steps were recorded from `t'`, and are made from `u`, which is alike
  obtain ⟨v, hv, halike''⟩ := halike.outcome (oblivious_redoAll ms') hout'
  refine ⟨ms ++ ms', v, by rw [hms', hms, List.append_assoc], ?_, halike'.trans halike''⟩
  rw [List.map_append]
  exact outcome_redoAll_append hout hv

/-! ## Operations -/

/-- an operation that has recorded itself, if anything, can be done again -/
theorem Redone.of_logged {op : Operation} {r : Reply} (hout : t.perform op = (.ok r, t')) (h : Logged op t r t') :
    Redone t t' := by
  rcases h with rfl | ⟨m, hm, hop, hr⟩
  · exact .of_alike (.refl _)
  · refine ⟨[m], t', hm, outcome_redoAll_cons ?_ (outcome_redoAll_nil t'), .refl t'⟩
    rw [outcome_redo, hop, hout, hr]

section NewAttributeType

variable {label : String} {v : DataType} {schema' : Schema} {x : TypeId} {d : TypeDef}

/-- a new attribute type is defined without a data type -/
theorem redo_defineType (hnone : outcome (existing label .attribute) t = (.ok none, t))
    (hc : t.working.checkNewType label .attribute (t.working.schema.metaTypes.ofKind .attribute) t.labelLimit = .ok ())
    (hi : t.working.schema.insert ⟨t.ids.next⟩ (.blank label (.attribute none none))
      (t.working.schema.metaTypes.ofKind .attribute) = .ok schema')
    (hm : m = .defineType ⟨t.ids.next⟩ label .attribute (t.working.schema.metaTypes.ofKind .attribute)) :
    outcome (redo m) t = (.ok m.answer,
      { t.withSchema schema' with ids := ⟨t.ids.next + 1⟩, mutations := t.mutations ++ [m] }) := by
  subst hm
  exact Done.outcome_eq (.map (.bind hnone (.bind hnone (.look (.get (.ask hc (.newType (.editSchema hi
    (.record (.pure ⟨rfl, rfl⟩))))))))))

theorem redo_setDataType (hc : t.working.checkSetDataType x v = .ok ()) (hd : t.working.schema.require x = .ok d)
    (hne : d.dataType? ≠ some v) (hchange : t.working.schema.change x (·.setDataType (some v)) = .ok schema')
    (hm : m = .setDataType x v) :
    outcome (redo m) t = (.ok m.answer, { t.withSchema schema' with mutations := t.mutations ++ [m] }) := by
  subst hm
  refine Done.outcome_eq (Done.map (e := setDataType x v) ?_)
  unfold setDataType
  refine .ask hc (.ask hd ?_)
  rw [if_pos hne]
  exact .editSchema hchange (.record_last ⟨rfl, rfl⟩)

end NewAttributeType

/-- a data type that is put with a new attribute type can be set afterwards -/
theorem putAttributeType_redone (h : t.Sound first n) (label : String) (v : DataType) :
    Ensures (putAttributeType label (some v)) t fun _ t' => n + drawn t t' < 2 ^ 64 → Redone t t' := by
  refine .ask fun found hfound => ?_
  cases found with
  | some x =>
    refine .look ?_
    dsimp only
    split
    · refine .bind fun _ t' hout => .pure fun _ => ?_
      have hset : t.perform (.setDataType x v) = (.ok .done, t') := outcome_map_eq_ok.2 ⟨(), hout, rfl⟩
      exact .of_logged hset (logged_setDataType x v () t' hout)
    · exact .pure fun _ => .of_alike (.refl t)
  | none =>
    refine .ask fun found' hfound' => ?_
    obtain rfl := Except.ok.inj (hfound.symm.trans hfound')
    refine .look (.get (.ask fun _ hc => .newType (.editSchema fun schema' hi => .record (.record (.pure fun hfit => ?_)))))
    -- the first step draws the same identifier, and nothing stands in the way of the second one
    rw [drawn_eq (k := 1) rfl (by decide)] at hfit
    have hnone : outcome (existing label .attribute) t = (.ok none, t) := by rw [existing, outcome_ask, hfound]
    obtain ⟨schema₀, hi₀, hcheck, hd, hchange⟩ := h.working.newAttributeType hfit (x := ⟨t.ids.next⟩) h.ids hc hi
    refine ⟨[_, _], _, List.append_assoc _ _ _, outcome_redoAll_cons (redo_defineType hnone hc hi₀ rfl)
      (outcome_redoAll_cons (redo_setDataType hcheck hd nofun hchange rfl) (outcome_redoAll_nil _)), ⟨rfl, rfl, rfl, rfl⟩⟩

/-- an edit of types or instances can be done again from what it has recorded -/
theorem edit_redone {op : Operation} {r : Reply} (h : t.Sound first n) (hop : op.editsSchema ∨ op.editsGraph)
    (hout : t.perform op = (.ok r, t')) (hfit : n + drawn t t' < 2 ^ 64) : Redone t t' := by
  -- a data type that is put with an attribute type is all that is not recorded as the operation that was called
  by_cases hplain : ∀ label v, op ≠ .putAttributeType label (some v)
  · exact .of_logged hout (op.logged hop hplain t r t' hout)
  · push Not at hplain
    obtain ⟨label, v, rfl⟩ := hplain
    have hredone : Ensures (Operation.putAttributeType label (some v)).perform t fun _ u =>
        n + drawn t u < 2 ^ 64 → Redone t u := .map (putAttributeType_redone h label v)
    exact hredone r t' hout hfit

/-- **Any operation** but to return to a savepoint can be done again from what it has recorded. -/
theorem perform_redone {op : Operation} {r : Reply} (h : t.Sound first n) (hop : ∀ name, op ≠ .rollbackTo name)
    (hout : t.perform op = (.ok r, t')) (hfit : n + drawn t t' < 2 ^ 64) : Redone t t' := by
  have hp := performed_of_ok h (by rwa [hout]) (congrArg Prod.fst hout)
  rw [hout] at hp
  cases hp with
  | schema hop _ => exact edit_redone h (Or.inl hop) hout hfit
  | graph hop _ => exact edit_redone h (Or.inr hop) hout hfit
  | savepoint name => exact .of_alike ⟨rfl, rfl, rfl, rfl⟩
  | rollbackTo _ => exact absurd rfl (hop _)
  | releaseSavepoint name => exact .of_alike ⟨rfl, rfl, rfl, rfl⟩

end Transaction

/-! ## Transactions -/

namespace Session

open Transaction

variable {config : SessionConfig} {ids : Option IdSource} {journal : Option Journal} {s s' : Session} {es : List Event}
  {t t' : Transaction} {ops : List Operation} {replies : List Reply} {first : UInt64} {n : Nat}

/-- operations one after the other can be done again from what they have recorded -/
theorem performed_redone (hw : s.writer = some t) (h : t.Sound first n) (hops : ∀ name, .rollbackTo name ∉ ops)
    (hout : outcome (ops.mapM Operation.perform) t = (.ok replies, t'))
    (hfit : n + s.drawn (ops.map .perform) < 2 ^ 64) : Redone t t' := by
  induction ops generalizing s t n replies with
  | nil =>
    obtain ⟨-, rfl⟩ := Prod.mk.inj hout
    exact .of_alike (.refl t)
  | cons op ops ih =>
    obtain ⟨r, rs, u, hfirst, hrest, -⟩ := outcome_mapM_cons.1 hout
    rw [← perform_eq] at hfirst
    rw [List.map_cons, drawn, drawnBy_perform hw, step_perform hw, hfirst, ← Nat.add_assoc] at hfit
    have hfit' : n + Transaction.drawn t u < 2 ^ 64 := Nat.lt_of_le_of_lt (Nat.le_add_right _ _) hfit
    have hu := perform_sound h op (by rwa [hfirst])
    rw [hfirst] at hu
    have hop : ∀ name, op ≠ .rollbackTo name := fun name hname => hops name (hname ▸ List.mem_cons_self)
    exact (perform_redone h hop hfirst hfit').trans
      (ih rfl hu (fun name hname => hops name (List.mem_cons_of_mem _ hname)) hrest hfit)

/-- **Mutations say it all.** Where each operation of a transaction was done and none returned to a savepoint, the steps
that its mutations name can be made from the same committed state and the same next identifier. Each is done, with the
identifiers that were recorded; the mutations are the same, and so is the state. -/
theorem replay_faithful (hs : start config ids journal = .ok s) (hidle : (s.run es).writer = none)
    (hops : ∀ name, .rollbackTo name ∉ ops) (hfit : s.issued (es ++ .begin :: ops.map .perform) < 2 ^ 64)
    (hout : outcome (ops.mapM Operation.perform) (s.run es).newTransaction.1 = (.ok replies, t))
    (hlimit : s'.config.maxLabelLen = (s.run es).config.maxLabelLen) (hids : s'.ids = (s.run es).ids)
    (hcommitted : s'.committed = (s.run es).committed) :
    ∃ t', outcome (redoAll t.mutations) s'.newTransaction.1 = (.ok (t.mutations.map Mutation.answer), t') ∧
      t'.mutations = t.mutations ∧ t'.working = t.working ∧ t'.ids = t.ids := by
  have hw : (s.run (es ++ [.begin])).writer = some (s.run es).newTransaction.1 := by
    rw [run_concat, step_begin_idle hidle]
  rw [List.append_cons] at hfit
  have hbegun := (run_sound hs hfit (List.prefix_append _ _)).writer hw
  rw [issued, drawn_append, ← Nat.add_assoc] at hfit
  obtain ⟨ms, u, hms, hredo, hu⟩ := performed_redone hw hbegun hops hout hfit
  obtain rfl : t.mutations = ms := hms
  have halike : (s.run es).newTransaction.1.Alike s'.newTransaction.1 :=
    ⟨congrArg UInt64.toNat hlimit, hids, hcommitted, rfl⟩
  obtain ⟨t', hredo', ht'⟩ := halike.outcome (oblivious_redoAll t.mutations) hredo
  have hsame := hu.trans ht'
  exact ⟨t', hredo', hsame.mutations, hsame.working, hsame.ids⟩

/-- types of persons and tags, which are published -/
def tagging : List Event :=
  [.begin, .perform (.putEntityType "person"), .perform (.putAttributeType "tag" (some .string)), .commit epoch]

/-- a person with an age, under another label in the end; the tags, which were to be keys of persons, are given up -/
def registration : List Operation :=
  [.putAttributeType "age" (some .long), .has ⟨6⟩ ⟨8⟩, .has ⟨6⟩ ⟨8⟩, .key ⟨6⟩ ⟨7⟩, .setLabel ⟨8⟩ "years", .createEntity ⟨6⟩,
    .putAttribute ⟨8⟩ (.long 3), .setHas ⟨15⟩ ⟨16⟩, .savepoint "held", .putAttribute ⟨8⟩ (.long 3), .deleteType ⟨7⟩]

/-- the mutations of the registration; that the age was put once more is none -/
def registered : List Mutation :=
  [.defineType ⟨8⟩ "age" .attribute ⟨4⟩, .setDataType ⟨8⟩ .long, .has ⟨6⟩ ⟨8⟩, .key ⟨6⟩ ⟨7⟩, .setLabel ⟨8⟩ "years",
    .createThing ⟨15⟩ ⟨6⟩, .putAttribute ⟨16⟩ ⟨8⟩ (.long 3), .setHas ⟨15⟩ ⟨16⟩ ⟨17⟩, .deleteType ⟨7⟩]

set_option maxRecDepth 10000 in
theorem registration_replayed : (blank.run tagging).writer = none ∧ (∀ name, .rollbackTo name ∉ registration) ∧
    blank.issued (tagging ++ .begin :: registration.map .perform) < 2 ^ 64 ∧ ∃ t t',
    outcome (registration.mapM Operation.perform) (blank.run tagging).newTransaction.1 =
      (.ok [.type ⟨8⟩, .done, .done, .done, .done, .thing ⟨15⟩, .thing ⟨16⟩, .thing ⟨17⟩, .done, .thing ⟨16⟩, .done], t) ∧
    t.mutations = registered ∧
    outcome (redoAll registered) { blank.run tagging with nextTxn := 7 }.newTransaction.1 =
      (.ok [.type ⟨8⟩, .done, .done, .done, .done, .thing ⟨15⟩, .thing ⟨16⟩, .thing ⟨17⟩, .done], t') ∧
    t'.mutations = registered ∧ t'.working = t.working ∧ t'.ids = t.ids := by
  have hidle : (blank.run tagging).writer.isNone := by decide +kernel
  rw [Option.isNone_iff_eq_none] at hidle
  have hops : ∀ name, .rollbackTo name ∉ registration := by simp [registration]
  have hfit : blank.issued (tagging ++ .begin :: registration.map .perform) < 2 ^ 64 := by decide +kernel
  have hreplies : (outcome (registration.mapM Operation.perform) (blank.run tagging).newTransaction.1).1 =
      .ok [.type ⟨8⟩, .done, .done, .done, .done, .thing ⟨15⟩, .thing ⟨16⟩, .thing ⟨17⟩, .done, .thing ⟨16⟩, .done] := by
    decide +kernel
  have hmutations : (outcome (registration.mapM Operation.perform) (blank.run tagging).newTransaction.1).2.mutations =
      registered := by decide +kernel
  cases hout : outcome (registration.mapM Operation.perform) (blank.run tagging).newTransaction.1 with
  | mk r t =>
    rw [hout] at hreplies hmutations
    obtain rfl : r = _ := hreplies
    have hlimit : { blank.run tagging with nextTxn := 7 }.config.maxLabelLen = (blank.run tagging).config.maxLabelLen :=
      rfl
    obtain ⟨t', hredo, hsame⟩ := replay_faithful start_testing hidle hops hfit hout hlimit rfl rfl
    rw [show t.mutations = registered from hmutations] at hredo hsame
    exact ⟨hidle, hops, hfit, t, t', rfl, hmutations, hredo, hsame⟩

end Session

end ConceptGraph
