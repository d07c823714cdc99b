/-
What a refused operation leaves behind.

- `SameContents`: two transactions with the same schema and instances, the same mutations and the same savepoints.
- `Session.refused_without_effect_iff`: in any transaction that a session gets to, an operation that is refused has
  changed nothing, but for one case. To delete an instance that holds itself is refused when some of the relations that
  record what it holds are gone already.
-/
import ConceptGraph.Proofs.Session.Runs

namespace ConceptGraph

/-- the transactions are the same but for the identifiers that they have drawn -/
structure Transaction.SameContents (t t' : Transaction) : Prop where
  working : t'.working = t.working
  mutations : t'.mutations = t.mutations
  savepoints : t'.savepoints = t.savepoints

namespace Session

variable {config : SessionConfig} {ids : Option IdSource} {journal : Option Journal} {s : Session} {es : List Event}
  {t : Transaction}

/-- an attribute of a type that owns itself, held by itself -/
def selfHolding : List Event :=
  [.begin, .perform (.putAttributeType "tag" (some .string)), .perform (.has ⟨6⟩ ⟨6⟩),
    .perform (.putAttribute ⟨6⟩ (.string "x")), .perform (.setHas ⟨10⟩ ⟨10⟩)]

/-- **A refusal has no effect**, whatever was asked for, unless it was to delete an instance that holds itself. -/
theorem refused_without_effect_iff (hs : start config ids journal = .ok s) (hw : (s.run es).writer = some t)
    (op : Operation) (hfit : s.issued (es ++ [.perform op]) < 2 ^ 64) :
    (∀ err t', t.perform op = (.error err, t') → t.SameContents t') ↔
      ¬ ∃ x, op = .deleteThing x ∧ (t.working.ownershipBetween? x x).isSome := by
  have ht := writer_sound hs hfit (List.prefix_refl _) hw
  have hfit := fits_during hfit hw (List.prefix_refl _)
  constructor
  · intro hsame hop
    obtain ⟨err, graph', heq, -, hne⟩ := Transaction.perform_collapses ht hop
    exact hne (congrArg State.graph (hsame err _ heq).working)
  · intro hop err t' heq
    rcases Transaction.perform_cases ht op hfit with ⟨err', heq'⟩ | ⟨r, t'', heq', -⟩ | ⟨_, _, hop', -⟩
    · obtain ⟨-, rfl⟩ := Prod.mk.inj (heq.symm.trans heq')
      exact ⟨rfl, rfl, rfl⟩
    · obtain ⟨herr, -⟩ := Prod.mk.inj (heq.symm.trans heq')
      simp at herr
    · exact absurd hop' hop

set_option maxRecDepth 10000 in
theorem refused_with_effect : ∃ t, (blank.run selfHolding).writer = some t ∧
    blank.issued (selfHolding ++ [.perform (.deleteThing ⟨10⟩)]) < 2 ^ 64 ∧
    ∃ err t', t.perform (.deleteThing ⟨10⟩) = (.error err, t') ∧ ¬ t.SameContents t' := by
  have hfit : blank.issued (selfHolding ++ [.perform (.deleteThing ⟨10⟩)]) < 2 ^ 64 := by decide +kernel
  have hself : (blank.run selfHolding).writer.map (fun t => (t.working.ownershipBetween? ⟨10⟩ ⟨10⟩).isSome) =
    some true := by decide +kernel
  obtain ⟨t, hw, hx⟩ := Option.map_eq_some_iff.1 hself
  have hiff := refused_without_effect_iff start_testing hw (.deleteThing ⟨10⟩) hfit
  refine ⟨t, hw, hfit, ?_⟩
  by_contra hno
  refine hiff.1 (fun err t' heq => ?_) ⟨⟨10⟩, rfl, hx⟩
  by_contra hne
  exact hno ⟨err, t', heq, hne⟩

end Session

end ConceptGraph
