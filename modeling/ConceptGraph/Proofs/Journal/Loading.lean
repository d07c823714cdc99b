/-
Journals of sessions, loaded again.

- `journal_loads_iff`: the text of the journal that a session writes is loaded exactly if no infinity and no NaN has got into
  it.
- `unbounded_not_loaded`: attributes can have such values, so there are journals that are lost once they are text.
-/
import ConceptGraph.Proofs.Journal.Text
import ConceptGraph.Proofs.Session.Publishing

namespace ConceptGraph

namespace Session

variable {s : Session} {j : Journal} {config : SessionConfig} {ids : Option IdSource}

/-- **What a session has journaled can be loaded again** exactly if all the numbers in it are finite, those that the journal
had from the start and those that commits put to it: an infinity or a NaN is written as null, and no domain of numbers has
a null. -/
theorem journal_loads_iff (hs : start config ids (some j) = .ok s) (es : List Event) :
    ∃ j', (s.run es).journal = some j' ∧
      ((∃ j'', Journal.ofText? j'.text = .ok j'') ↔
        (∀ r ∈ j.records, r.isFinite ∧ r.lsn ≠ Journal.lastNumber) ∧ ∀ e ∈ (s.submitted es).take j.room, e.isFinite) := by
  have hj : s.journal = some j := by rw [start_eq hs]
  obtain ⟨b, hrun⟩ := journaled_run hj es
  refine ⟨_, hrun, ?_⟩
  rw [Journal.text_loads_iff]
  show (∀ r ∈ j.records ++ Journal.inRow j.next ((s.submitted es).take j.room), _) ↔ _
  have hnew : (∀ r ∈ Journal.inRow j.next ((s.submitted es).take j.room), r.isFinite ∧ r.lsn ≠ Journal.lastNumber) ↔
      ∀ e ∈ (s.submitted es).take j.room, e.isFinite := by
    rw [← Journal.entries_inRow j.next ((s.submitted es).take j.room), List.forall_mem_map, Journal.entries_inRow]
    exact forall₂_congr fun r hr =>
      and_iff_left (Journal.lsn_ne_lastNumber (List.length_take_le _ _) hr)
  rw [List.forall_mem_append, hnew]

/-- an infinity is put and committed -/
def unbounded : List Event :=
  [.begin, .perform (.putAttributeType "load" (some .double)),
    .perform (.putAttribute ⟨6⟩ (.double ⟨0x7FF0000000000000⟩)), .commit epoch]

set_option maxRecDepth 10000 in
theorem unbounded_not_loaded :
    journaling.submitted unbounded =
      [.begun 1, .applied 1 (.defineType ⟨6⟩ "load" .attribute ⟨4⟩), .applied 1 (.setDataType ⟨6⟩ .double),
        .applied 1 (.putAttribute ⟨7⟩ ⟨6⟩ (.double ⟨0x7FF0000000000000⟩)), .committed 1 epoch] ∧
    ∃ j, (journaling.run unbounded).journal = some j ∧ ¬∃ j', Journal.ofText? j.text = .ok j' := by
  have hstart : start .testing none (some .empty) = .ok journaling := rfl
  have hsubmitted : journaling.submitted unbounded =
      [.begun 1, .applied 1 (.defineType ⟨6⟩ "load" .attribute ⟨4⟩), .applied 1 (.setDataType ⟨6⟩ .double),
        .applied 1 (.putAttribute ⟨7⟩ ⟨6⟩ (.double ⟨0x7FF0000000000000⟩)), .committed 1 epoch] := by decide +kernel
  obtain ⟨j, hj, hloads⟩ := journal_loads_iff hstart unbounded
  refine ⟨hsubmitted, j, hj, ?_⟩
  rw [hloads, hsubmitted, List.take_of_length_le (by decide)]
  decide

end Session

end ConceptGraph
