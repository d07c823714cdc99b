/-
Operations that are made twice. Whoever does not know whether an operation has been done may ask for it again: there is
nothing left to do then, and the answer is the one that was given before, or that there is nothing left to take away.

- `Graph.addRolePlayer_again`, `Graph.removeRolePlayer_again`: a player who is there already, or not any more.
- `putAttribute_idle` to `unsetHas_idle`: edits of instances are idle the next time. `setLabel_idle`: so are renamings.
- `Operation.Repeatable`: all operations but those that make something anew each time, or delete it, and savepoints.
- `perform_again`: what comes of a repeatable operation that is made again.
- `Session.retried_unchanged`: so it is in every transaction that a session gets to.
-/
import ConceptGraph.Proofs.Types.IdleEdits
import ConceptGraph.Proofs.Instances.Interning
import ConceptGraph.Proofs.Types.Renaming
import ConceptGraph.Proofs.Instances.Scans

namespace ConceptGraph

open Std

/-! ## Players -/

namespace Graph

variable {g g' : Graph} {r p : ThingId} {role : TypeId} {added removed : Bool} (hi : g.Indexed) (hc : g.Closed)

include hi hc

/-- a player who has been added is there -/
theorem addRolePlayer_again (h : g.addRolePlayer r role p = .ok (added, g')) :
    g'.addRolePlayer r role p = .ok (false, g') := by
  obtain ⟨-, -, hbare, hplays⟩ := addRolePlayer_spec hi hc h
  have hthere : g'.Plays r role p := (hplays r role p).2 (Or.inr ⟨rfl, rfl, rfl⟩)
  obtain ⟨b, hb, hrel⟩ := hthere.relation
  obtain ⟨added', g'', h'⟩ := addRolePlayer_total role hb hrel ((contains_congr hbare p).2 (addRolePlayer_ok h).1)
  obtain ⟨-, ps, hps, ⟨-, rfl, rfl⟩ | ⟨hnot, -⟩⟩ := addRolePlayer_ok h'
  · exact h'
  · exact absurd ((plays_of_playersOf? hps role p).1 hthere) hnot

/-- a player who has been removed is not there -/
theorem removeRolePlayer_again (h : g.removeRolePlayer r role p = .ok (removed, g')) :
    g'.removeRolePlayer r role p = .ok (false, g') := by
  obtain ⟨-, -, hbare, hplays⟩ := removeRolePlayer_spec hi hc h
  have hgone : ¬ g'.Plays r role p := fun hp => ((hplays r role p).1 hp).2 ⟨rfl, rfl, rfl⟩
  obtain ⟨ps, hps⟩ : ∃ ps, g'.playersOf? r = some ps := by
    cases hps : g.playersOf? r with
    | none => simp [removeRolePlayer, hps] at h
    | some ps =>
      obtain ⟨th, hth, hrel⟩ := Option.bind_eq_some_iff.1 hps
      refine playersOf?_of_bare? ((hbare r).trans (bare?_of_get? hth)) ?_
      rw [Thing.bare_isRelation, Thing.isRelation, hrel]
      rfl
  have hnot : ¬ ps.contains (⟨role, p⟩ : RolePlayer) := fun hp => hgone ((plays_of_playersOf? hps role p).2 hp)
  simp only [removeRolePlayer, hps, detach, if_neg hnot]

end Graph

namespace State

variable {s : State} {graph' : Graph} {first : UInt64} {n : Nat} {q : ImplicitOwnership} {x r p o a : ThingId}
  {role : TypeId} {th : Thing}

/-! ## Rules that look at types -/

section SameTypes

variable (hbare : ∀ x, graph'.bare? x = s.graph.bare? x)

include hbare

theorem get?_of_same (hth : s.graph.get? x = some th) :
    ∃ th', graph'.get? x = some th' ∧ th'.type = th.type ∧ th'.isRelation = th.isRelation := by
  obtain ⟨th', hth', hb⟩ := Graph.get?_of_bare? ((hbare x).trans (Graph.bare?_of_get? hth))
  exact ⟨th', hth', by rw [← Thing.bare_type, hb, Thing.bare_type],
    by rw [← Thing.bare_isRelation, hb, Thing.bare_isRelation]⟩

theorem relation_of_same (h : s.relation r = .ok th) :
    ∃ th', ({ s with graph := graph' } : State).relation r = .ok th' ∧ th'.type = th.type := by
  simp only [relation, bind_eq_ok, thing_eq_ok, Schema.require_eq_ok, if_throw_bind_eq_ok, pure_eq_ok] at h ⊢
  obtain ⟨th₁, hth, d, hd, hrel, u, hplain, rfl⟩ := h
  obtain ⟨th', hth', htype, hsame⟩ := get?_of_same hbare hth
  exact ⟨th', ⟨th', hth', d, htype ▸ hd, by rwa [hsame], u, hplain, rfl⟩, htype⟩

theorem checkAddRolePlayer_of_same (hc : s.checkAddRolePlayer r role p = .ok ()) :
    ({ s with graph := graph' } : State).checkAddRolePlayer r role p = .ok () := by
  simp only [checkAddRolePlayer, bind_eq_ok, thing_eq_ok, if_throw_bind_eq_ok, if_throw_eq_ok] at hc ⊢
  obtain ⟨th, hrel, d, hd, u, hplain, hrelates, c, hc, hplays, hdone⟩ := hc
  obtain ⟨th', hrel', htype⟩ := relation_of_same hbare hrel
  obtain ⟨c', hc', htype', -⟩ := get?_of_same hbare hc
  exact ⟨th', hrel', d, hd, u, hplain, htype ▸ hrelates, c', hc', htype' ▸ hplays, hdone⟩

theorem checkRemoveRolePlayer_of_same (hc : s.checkRemoveRolePlayer r role = .ok ()) :
    ({ s with graph := graph' } : State).checkRemoveRolePlayer r role = .ok () := by
  simp only [checkRemoveRolePlayer, bind_eq_ok] at hc ⊢
  obtain ⟨th, hrel, hrole⟩ := hc
  obtain ⟨th', hrel', -⟩ := relation_of_same hbare hrel
  exact ⟨th', hrel', hrole⟩

end SameTypes

/-- the new relation of a record records the ownership -/
theorem edge_of_grown (hs : s.schema.Recorded) (hq : s.schema.HasRecord q)
    (hgr : s.graph.Grown graph' r ⟨q.relation, .relation ∅⟩ fun role p =>
      (role = q.ownerRole ∧ p = o) ∨ (role = q.valueRole ∧ p = a)) :
    ({ s with graph := graph' } : State).Edge q r o a where
  relation := ⟨_, (hgr.bare r).trans (if_pos rfl), (hs.byRelation q.relation q).2 ⟨hq, rfl⟩⟩
  owner := hgr.plays_new.2 (Or.inl ⟨rfl, rfl⟩)
  held := hgr.plays_new.2 (Or.inr ⟨rfl, rfl⟩)

end State

namespace Transaction

open State

variable {α β : Type} {first : UInt64} {n m : Nat} {t t' : Transaction} {a role : TypeId} {v : Value}
  {r p o held x : ThingId} {q : ImplicitOwnership}

/-! ## Edits of instances -/

theorem Idle.editGraph {f : Graph → Except ConceptError (β × Graph)} {k : β → Edit α} {b : β} {c : α}
    (hf : f t.working.graph = .ok (b, t.working.graph)) (hk : Idle (k b) c t) : Idle (editGraph f >>= k) c t := by
  refine .bind ?_ hk
  rw [Idle, outcome_editGraph, hf]
  rfl

/-- the value is found, as it has been put -/
theorem putAttribute_idle (h : t.Sound first n) (hn : n < 2 ^ 64) (a : TypeId) (v : Value) :
    Ensures (putAttribute a v) t fun x t' => t'.Sound first m → Idle (putAttribute a v) x t' := by
  intro x t' hout h'
  have hasked : Ensures (putAttribute a v) t fun _ t' => t'.working.checkPutAttribute a v = .ok () := by
    refine .ask fun _ hc => .look ?_
    cases t.working.graph.findAttribute? a v with
    | some y => exact .pure hc
    | none => exact .newThing (.editGraph fun _ _ _ => .record (.pure hc))
  have hstored := (putAttribute_interns h hn a v x t' hout).stored
  have hfound := (Graph.findAttribute?_eq_some_iff h'.working.indexed).2 hstored
  refine .ask (hasked x t' hout) (.look ?_)
  rw [hfound]
  exact .pure x

theorem addRolePlayer_idle (h : t.Sound first n) (r : ThingId) (role : TypeId) (p : ThingId) :
    Ensures (addRolePlayer r role p) t fun u t' => Idle (addRolePlayer r role p) u t' := by
  refine .ask fun _ hc => .editGraph fun added graph' hadd => ?_
  obtain ⟨-, -, hbare, -⟩ := Graph.addRolePlayer_spec h.working.indexed h.working.closed hadd
  have hagain := Graph.addRolePlayer_again h.working.indexed h.working.closed hadd
  have hidle : ∀ ms, Idle (addRolePlayer r role p) () { t.withGraph graph' with mutations := ms } := fun _ =>
    .ask (checkAddRolePlayer_of_same hbare hc) (.editGraph hagain (.pure ()))
  cases added with
  | true => exact .record_last (hidle _)
  | false => exact .pure (hidle _)

/-- there is nobody left to remove -/
theorem removeRolePlayer_idle (h : t.Sound first n) (r : ThingId) (role : TypeId) (p : ThingId) :
    Ensures (removeRolePlayer r role p) t fun _ t' => Idle (removeRolePlayer r role p) false t' := by
  refine .ask fun _ hc => .editGraph fun removed graph' hrm => ?_
  obtain ⟨-, -, hbare, -⟩ := Graph.removeRolePlayer_spec h.working.indexed h.working.closed hrm
  have hagain := Graph.removeRolePlayer_again h.working.indexed h.working.closed hrm
  have hidle : ∀ ms, Idle (removeRolePlayer r role p) false { t.withGraph graph' with mutations := ms } := fun _ =>
    .ask (checkRemoveRolePlayer_of_same hbare hc) (.editGraph hagain (.pure false))
  cases removed with
  | true => exact .record (.pure (hidle _))
  | false => exact .pure (hidle _)

/-- what is held is found -/
theorem setHas_of_edge (h : t.Sound first n) (honce : t.working.HoldsOnce) (hedge : t.working.Edge q x o held) :
    Idle (setHas o held) x t := by
  obtain ⟨decl, hc⟩ := checkSetHas_held h.working hedge
  have hfound := (ownershipBetween?_iff h.working honce).2 (mem_scanEdges.2 ⟨q, hedge⟩)
  refine .ask hc (.look ?_)
  rw [hfound]
  exact .pure x

theorem setHas_idle (h : t.Sound first n) (hn : n < 2 ^ 64) (o held : ThingId) :
    Ensures (setHas o held) t fun x t' => t'.Sound first m → t'.working.HoldsOnce → Idle (setHas o held) x t' := by
  intro x t' hout h' honce'
  rcases setHas_holds h hn o held x t' hout with rfl | ⟨decl, q, -, hq, -, hschema, hgr⟩
  · exact hout
  · have hrec := (h.working.recorded.implicitForOwned?.1 hq).1
    have hedge := edge_of_grown h.working.recorded hrec hgr
    rw [← hschema] at hedge
    exact setHas_of_edge h' honce' hedge

/-- the one relation that has recorded the ownership is gone, and both ends are there -/
theorem unsetHas_idle (h : t.Sound first n) (honce : t.working.HoldsOnce) (o held : ThingId) :
    Ensures (unsetHas o held) t fun _ t' => Idle (unsetHas o held) false t' := by
  refine .ask fun tho htho => .ask fun tha htha => .look ?_
  cases hfound : t.working.ownershipBetween? o held with
  | none => exact .pure (.ask htho (.ask htha (.look (hfound ▸ .pure false))))
  | some r =>
    refine .bind (.editGraph fun th graph' hrm => .pure (.record (.pure ?_)))
    obtain ⟨q, hedge⟩ := ownershipBetween?_sound h.working.recorded h.working.indexed h.working.instances hfound
    have hend : ∀ q' r' o' a', t.working.Edge q' r' o' a' → o' ≠ r ∧ a' ≠ r := fun _ _ _ _ he =>
      hedge.apart h.working he
    obtain ⟨ho, ha⟩ := hend q r o held hedge
    have hs' := h.working.erase hrm hend
    have hnone : ({ t.working with graph := graph' } : State).ownershipBetween? o held = none := by
      rw [← Option.not_isSome_iff_eq_none, ownershipBetween?_isSome hs'.recorded hs'.indexed hs'.instances]
      rintro ⟨q', r', he⟩
      obtain ⟨he, hne⟩ := (h.working.edge_erase hrm hend q' r' o held).1 he
      exact hne (honce q' q r' r o held he hedge)
    have hthere : ∀ {x th}, x ≠ r → t.working.thing x = .ok th → ∃ th', graph'.get? x = some th' := fun hx hth =>
      Graph.contains_iff_get?.1 ((Graph.contains_remove h.working.indexed h.working.closed hrm).2
        ⟨Graph.contains_iff_get?.2 ⟨_, thing_eq_ok.1 hth⟩, hx⟩)
    obtain ⟨tho', htho'⟩ := hthere ho htho
    obtain ⟨tha', htha'⟩ := hthere ha htha
    exact .ask (thing_eq_ok.2 htho') (.ask (thing_eq_ok.2 htha') (.look (hnone ▸ .pure false)))

/-! ## Renaming -/

/-- the element is called so by now, and nobody else is -/
theorem setLabel_idle (h : t.Sound first n) (a : TypeId) (l : Label) :
    Ensures (setLabel a l) t fun u t' => Idle (setLabel a l) u t' := by
  intro u t' hout
  have hok := perform_setLabel_of_outcome hout
  have hc := check_of_perform_setLabel (congrArg Prod.fst hok)
  have hargs := hc
  simp only [checkSetLabel, bind_eq_ok, editableAny_eq_ok] at hargs
  obtain ⟨d, he, -⟩ := hargs
  have hcoherent := h.working.coherent
  rcases perform_setLabel_cases hcoherent h.working.recorded he hc with
    ⟨-, hsame⟩ | ⟨schema', -, hre, hcoherent', hrecorded', hmade⟩
  · obtain ⟨-, rfl⟩ := Prod.mk.inj (hok.symm.trans hsame)
    exact hout
  · obtain ⟨-, rfl⟩ := Prod.mk.inj (hok.symm.trans hmade)
    obtain ⟨hl, -⟩ := (checkSetLabel_iff hcoherent.indexed h.working.recorded he).1 hc
    have he' := he.relabelled hre hl.plain
    have hheld : schema'.idOf? l = some a := (hcoherent'.indexed.label l a).2 ⟨_, he'.1, rfl⟩
    have hc' := (checkSetLabel_iff hcoherent'.indexed hrecorded' he').2
      ⟨hl, fun x hx => Option.some.inj (hx.symm.trans hheld)⟩
    exact outcome_setLabel_same hc' he'.1 rfl

end Transaction

/-! ## Operations -/

/-- what is answered to an operation that is made again: there is nothing left to take away -/
def Reply.again : Reply → Reply
  | .flag _ => .flag false
  | r => r

namespace Operation

/-- it may be made twice. To create, to delete and to deal with savepoints is another thing each time. -/
def Repeatable : Operation → Prop
  | .deleteType _ | .createEntity _ | .createRelation _ | .deleteThing _ | .savepoint _ | .rollbackTo _
  | .releaseSavepoint _ => False
  | _ => True

/-- what is recorded when it is made again: a regex -/
def rerecorded : Operation → List Mutation
  | .setRegex a source => [.setRegex a source]
  | _ => []

end Operation

namespace Transaction

variable {α : Type} {first : UInt64} {n : Nat} {t t' : Transaction} {op : Operation} {r : Reply}

/-- what comes of an operation that is made again -/
def Again (op : Operation) (r : Reply) (t' : Transaction) : Prop :=
  t'.perform op = (.ok r.again, { t' with mutations := t'.mutations ++ op.rerecorded })

/-- an operation that does an idle edit and records nothing -/
theorem Again.of_idle {e : Edit α} {f : α → Reply} {g : α → α} (hok : t.perform op = (.ok r, t'))
    (hop : op.perform = f <$> e) (hrec : op.rerecorded = [])
    (hidle : ∀ a, outcome e t = (.ok a, t') → Idle e (g a) t') (hg : ∀ a, f (g a) = (f a).again) : Again op r t' := by
  rw [perform_eq, hop] at hok
  obtain ⟨a, hout, rfl⟩ := outcome_map_eq_ok.1 hok
  rw [Again, perform_eq, hop, outcome_map, hidle a hout, hrec, List.append_nil]
  exact congrArg (fun r => (Except.ok r, t')) (hg a)

/-- **Whatever has been done** can be done again, and there is nothing to do then. -/
theorem perform_again (h : t.Sound first n) (honce : t.working.HoldsOnce)
    (hfit : n + drawn t (t.perform op).2 < 2 ^ 64) (hop : op.Repeatable) (hok : t.perform op = (.ok r, t')) :
    Again op r t' := by
  have h' := perform_sound h op hfit
  have honce' := honce.adds (perform_adds h op hfit (by rintro name rfl; exact hop))
  rw [hok] at h' honce' hfit
  dsimp only at h' honce' hfit
  have hn : n < 2 ^ 64 := by omega
  cases op with
  | putEntityType l => exact .of_idle hok rfl rfl (putType_idle l .entity · t') fun _ => rfl
  | putRelationType l => exact .of_idle hok rfl rfl (putType_idle l (.relation ∅ none) · t') fun _ => rfl
  | putRole l => exact .of_idle hok rfl rfl (putType_idle l .role · t') fun _ => rfl
  | putAttributeType l v =>
    exact .of_idle hok rfl rfl (fun x hout => putAttributeType_idle l v x t' hout h'.working.coherent.indexed)
      fun _ => rfl
  | setSupertype a p => exact .of_idle hok rfl rfl (setSupertype_idle h a p · t') fun _ => rfl
  | setLabel a l => exact .of_idle hok rfl rfl (setLabel_idle h a l · t') fun _ => rfl
  | setAbstract a b => exact .of_idle hok rfl rfl (setAbstract_idle a b · t') fun _ => rfl
  | setDataType a v => exact .of_idle hok rfl rfl (setDataType_idle a v · t') fun _ => rfl
  | setRegex a source =>
    obtain ⟨u, hout, rfl⟩ := outcome_map_eq_ok.1 hok
    rw [Again, perform_eq, Operation.perform, Operation.perform.done, outcome_map, setRegex_again h a source u t' hout]
    rfl
  | unsetRegex a => exact .of_idle hok rfl rfl (unsetRegex_idle a · t') fun _ => rfl
  | plays a role => exact .of_idle hok rfl rfl (plays_idle a role · t') fun _ => rfl
  | unplay a role => exact .of_idle hok rfl rfl (unplay_idle a role · t') fun _ => rfl
  | relates a role => exact .of_idle hok rfl rfl (relates_idle a role · t') fun _ => rfl
  | unrelate a role => exact .of_idle hok rfl rfl (unrelate_idle a role · t') fun _ => rfl
  | has a owned => exact .of_idle hok rfl rfl (fun u hout => has_idle h a owned u t' hout hfit) fun _ => rfl
  | unhas a owned => exact .of_idle hok rfl rfl (unhas_idle a owned · t') fun _ => rfl
  | key a owned => exact .of_idle hok rfl rfl (fun u hout => key_idle h a owned u t' hout hfit) fun _ => rfl
  | unkey a owned => exact .of_idle hok rfl rfl (unkey_idle a owned · t') fun _ => rfl
  | putAttribute a v =>
    exact .of_idle hok rfl rfl (fun x hout => putAttribute_idle h hn a v x t' hout h') fun _ => rfl
  | addRolePlayer r role p => exact .of_idle hok rfl rfl (addRolePlayer_idle h r role p · t') fun _ => rfl
  | removeRolePlayer r role p => exact .of_idle hok rfl rfl (removeRolePlayer_idle h r role p · t') fun _ => rfl
  | setHas o held =>
    exact .of_idle hok rfl rfl (fun x hout => setHas_idle h hn o held x t' hout h' honce') fun _ => rfl
  | unsetHas o held => exact .of_idle hok rfl rfl (unsetHas_idle h honce o held · t') fun _ => rfl
  | _ => exact hop.elim

end Transaction

namespace Session

open State Transaction

variable {config : SessionConfig} {ids : Option IdSource} {journal : Option Journal} {s : Session} {es : List Event}
  {t t' : Transaction} {op : Operation} {r : Reply}

/-- **To try again** does no harm, in whatever state a session gets to. What has been done is answered once more, with
nothing left to take away; types, instances, identifiers and savepoints are as they were, and nothing is recorded but a
regex. -/
theorem retried_unchanged (hs : start config ids journal = .ok s) (hfit : s.issued (es ++ [.perform op]) < 2 ^ 64)
    (hw : (s.run es).writer = some t) (hop : op.Repeatable) (hok : t.perform op = (.ok r, t')) :
    t'.perform op = (.ok r.again, { t' with mutations := t'.mutations ++ op.rerecorded }) := by
  have hfit' : s.issued es < 2 ^ 64 := Nat.lt_of_le_of_lt (issued_le (List.prefix_append _ _)) hfit
  exact perform_again (writer_sound hs hfit (List.prefix_refl _) hw) ((run_holdsOnce hs hfit').writer t hw).working
    (fits_during hfit hw (List.prefix_refl _)) hop hok

/-- a person, and a name, which is a key of persons -/
def nameGiven : List Event :=
  [.begin, .perform (.putEntityType "person"), .perform (.putAttributeType "name" (some .string)),
    .perform (.key ⟨6⟩ ⟨7⟩), .perform (.createEntity ⟨6⟩), .perform (.putAttribute ⟨7⟩ (.string "Ada"))]

set_option maxRecDepth 10000 in
/-- the name is not taken for the person that has it already; a regex for names is set once more -/
theorem nameGiven_retried : blank.issued (nameGiven ++ [.perform (.setHas ⟨11⟩ ⟨12⟩)]) < 2 ^ 64 ∧
    blank.issued (nameGiven ++ [.perform (.setRegex ⟨7⟩ "[A-Z][a-z]*")]) < 2 ^ 64 ∧
    ∃ t t₁ t₂, (blank.run nameGiven).writer = some t ∧
      t.perform (.setHas ⟨11⟩ ⟨12⟩) = (.ok (.thing ⟨13⟩), t₁) ∧
      t₁.perform (.setHas ⟨11⟩ ⟨12⟩) = (.ok (.thing ⟨13⟩), t₁) ∧
      t.perform (.setRegex ⟨7⟩ "[A-Z][a-z]*") = (.ok .done, t₂) ∧
      t₂.perform (.setRegex ⟨7⟩ "[A-Z][a-z]*") =
        (.ok .done, { t₂ with mutations := t₂.mutations ++ [.setRegex ⟨7⟩ "[A-Z][a-z]*"] }) := by
  have hfit₁ : blank.issued (nameGiven ++ [.perform (.setHas ⟨11⟩ ⟨12⟩)]) < 2 ^ 64 := by decide +kernel
  have hfit₂ : blank.issued (nameGiven ++ [.perform (.setRegex ⟨7⟩ "[A-Z][a-z]*")]) < 2 ^ 64 := by decide +kernel
  have hfound : (blank.run nameGiven).writer.map (fun t => ((t.perform (.setHas ⟨11⟩ ⟨12⟩)).1.toOption,
      (t.perform (.setRegex ⟨7⟩ "[A-Z][a-z]*")).1.toOption)) = some (some (.thing ⟨13⟩), some .done) := by
    decide +kernel
  obtain ⟨t, hw, ht⟩ := Option.map_eq_some_iff.1 hfound
  simp only [Prod.mk.injEq, toOption_eq_some] at ht
  have hheld := Prod.ext (y := (_, (t.perform (.setHas ⟨11⟩ ⟨12⟩)).2)) ht.1 rfl
  have hset := Prod.ext (y := (_, (t.perform (.setRegex ⟨7⟩ "[A-Z][a-z]*")).2)) ht.2 rfl
  have hheld' := retried_unchanged start_testing hfit₁ hw trivial hheld
  rw [show (Operation.setHas ⟨11⟩ ⟨12⟩).rerecorded = [] from rfl, List.append_nil] at hheld'
  exact ⟨hfit₁, hfit₂, t, _, _, hw, hheld, hheld', hset, retried_unchanged start_testing hfit₂ hw trivial hset⟩

end Session

end ConceptGraph
