/-
An instance holds an attribute once. That it holds it is recorded by one relation at most, in every state that a session
gets to; so to count what is held is to count attributes.

- `HoldsOnce`: no two relations record that the same instance holds the same attribute.
- `Adds`: there is at most one ownership more than before, between two instances that had none. That is so after any
  operation in a transaction that does not return to a savepoint (`perform_adds`).
- `Session.run_holdsOnce`: all states along a run are `HoldsOnce`.
-/
import ConceptGraph.Proofs.Transaction.GraphEdits
import ConceptGraph.Proofs.Instances.OwnershipReads

namespace ConceptGraph

open Std

namespace State

variable {s s' : State} {graph' : Graph} {first : UInt64} {n : Nat} {q : ImplicitOwnership} {id r o a : ThingId}
  {b : Thing}

/-- no two relations record that the same instance holds the same attribute -/
def HoldsOnce (s : State) : Prop := ∀ q q' r r' o a, s.Edge q r o a → s.Edge q' r' o a → r = r'

/-- all ownerships have been there before, but for one between two instances that had none -/
def Adds (s s' : State) : Prop :=
  ∃ x, ∀ q r o a, s'.Edge q r o a → s.Edge q r o a ∨ (r = x ∧ ∀ q' r', ¬ s.Edge q' r' o a)

theorem Adds.of_fewer (h : ∀ q r o a, s'.Edge q r o a → s.Edge q r o a) : s.Adds s' :=
  ⟨⟨0⟩, fun q r o a he => Or.inl (h q r o a he)⟩

theorem HoldsOnce.adds (h : s.HoldsOnce) (ha : s.Adds s') : s'.HoldsOnce := by
  obtain ⟨x, hx⟩ := ha
  intro q q' r r' o a he he'
  rcases hx q r o a he with hold | ⟨hr, hnone⟩
  · rcases hx q' r' o a he' with hold' | ⟨-, hnone'⟩
    · exact h q q' r r' o a hold hold'
    · exact absurd hold (hnone' q r)
  · rcases hx q' r' o a he' with hold' | ⟨hr', -⟩
    · exact absurd hold' (hnone q' r')
    · exact hr.trans hr'.symm

/-- an edit of the graph adds one ownership at most, if there was none -/
theorem Regraphs.adds (h : s.Sound first n) (hr : Regraphs s graph') : s.Adds { s with graph := graph' } := by
  cases hr with
  | made hgr =>
    refine .of_fewer fun q r o a he => ?_
    rcases he.of_grown hgr with he | ⟨-, -, hnew, -⟩
    · exact he
    · exact hnew.elim
  | @held id o a _ _ decl q _ _ _ hq hnone hgr =>
    have hrec := (h.recorded.implicitForOwned?.1 hq).1
    refine ⟨id, fun q' r o' a' he => ?_⟩
    rcases he.of_held h.recorded hrec hgr with he | ⟨rfl, rfl, rfl, rfl⟩
    · exact Or.inl he
    · refine Or.inr ⟨rfl, fun q r he => ?_⟩
      have := (ownershipBetween?_isSome h.recorded h.indexed h.instances).2 ⟨q, r, he⟩
      simp [hnone] at this
  | filled hb hu hbare hplays => exact .of_fewer fun q r o a he => he.of_players hb hu hbare hplays
  | fewer hf => exact .of_fewer fun q r o a he => he.of_fewer hf

end State

namespace Transaction

open State

variable {first : UInt64} {n : Nat} {t t' : Transaction}

/-! ## Runs -/

/-- **Any operation** that does not return to a savepoint adds one ownership at most. -/
theorem perform_adds (h : t.Sound first n) (op : Operation) (hfit : n + drawn t (t.perform op).2 < 2 ^ 64)
    (hback : ∀ name, op ≠ .rollbackTo name) : t.working.Adds (t.perform op).2.working := by
  rcases perform_edits h hfit hback with ⟨hop, r, hok⟩ | ⟨graph', hw, hr⟩
  · obtain ⟨k, -, -, -, hstep⟩ := (performed_of_ok h hfit hok).schemaDone hop
    exact .of_fewer fun q r o a he => (hstep.edge_iff.1 he).1
  · exact hw ▸ hr.adds h.working

/-- no operation makes an instance hold an attribute twice -/
theorem perform_holdsOnce (h : t.Sound first n) (hs : t.Everywhere HoldsOnce) (op : Operation)
    (hfit : n + drawn t (t.perform op).2 < 2 ^ 64) : (t.perform op).2.Everywhere HoldsOnce := by
  refine perform_everywhere h hfit hs (fun _ hop _ => ?_) fun graph' hr => hs.working.adds (hr.adds h.working)
  refine hs.working.adds (perform_adds h op hfit ?_)
  rintro name rfl
  cases hop

end Transaction

namespace Session

open State

variable {config : SessionConfig} {ids : Option IdSource} {journal : Option Journal} {s : Session} {es : List Event}

/-- **An instance holds an attribute once** in all states along a run. -/
theorem run_holdsOnce (hs : start config ids journal = .ok s) (hfit : s.issued es < 2 ^ 64) :
    (s.run es).Everywhere State.HoldsOnce := by
  refine run_everywhere hs ?_ (fun p op t hp hw ht => ?_) (List.prefix_refl es)
  · rintro q q' r r' o a ⟨⟨b, hb, -⟩, -⟩
    simp [bare?_empty] at hb
  · exact Transaction.perform_holdsOnce (writer_sound hs hfit hp hw) ht op (fits_during hfit hw hp)

end Session

end ConceptGraph
