/-
Numbers of the records that a journal takes after it has been loaded.

- `GrowsFrom`: each later record has a larger number than all records before it.
- `Continues`: the next number is the one after the largest. So it is after a text has been loaded (`next_of_text`), and
  what extends the journal keeps it so (`Continues.extend`) and grows (`Continues.growsFrom`).
- `later_numbers_grow`: numbers grow whatever is done with a journal that has been loaded. Where they are used up calls
  break off, and no number is given a second time.
-/
import ConceptGraph.Proofs.Journal.Text

namespace ConceptGraph

namespace Journal

variable {j : Journal} {rs : List JournalRecord} {r : JournalRecord} {es : List JournalEntry} {input : String}

/-- from the `n`-th on, each record has a larger number than all records before it -/
def GrowsFrom (n : Nat) (rs : List JournalRecord) : Prop :=
  ∀ (i k : Nat) (r q : JournalRecord), rs[i]? = some r → rs[k]? = some q → n ≤ i → k < i → q.lsn < r.lsn

theorem le_lastLsn (hr : r ∈ rs) : r.lsn.toNat ≤ lastLsn rs := List.le_max?_getD_of_mem (List.mem_map_of_mem hr)

theorem lastLsn_append (rs rs' : List JournalRecord) : lastLsn (rs ++ rs') = max (lastLsn rs) (lastLsn rs') := by
  induction rs with
  | nil => simp [lastLsn]
  | cons r rs ih => rw [List.cons_append, lastLsn_cons, lastLsn_cons, ih, max_assoc]

/-! ## After the largest number -/

/-- the next number is the one after the largest -/
def Continues (j : Journal) : Prop := j.next.toNat = lastLsn j.records + 1

/-- how many more records there can be -/
theorem Continues.room (h : j.Continues) : j.room = 2 ^ 64 - 2 - lastLsn j.records := by
  have := j.next_add_room
  rw [Continues] at h
  omega

/-- **To extend** a journal keeps it so. -/
theorem Continues.extend (h : j.Continues) (hfit : es.length ≤ j.room) : (j.extend es).Continues := by
  induction es generalizing j with
  | nil => rwa [extend_nil]
  | cons e es ih =>
    rw [List.length_cons] at hfit
    have hone : [e].length ≤ j.room := by
      rw [List.length_singleton]
      omega
    have hfirst : (j.extend [e]).Continues := by
      have hlast : lastLsn (j.extend [e]).records = max (lastLsn j.records) j.next.toNat := by
        simp [Journal.extend, inRow, lastLsn_append, lastLsn_cons, show lastLsn [] = 0 from rfl]
      rw [Continues] at h ⊢
      rw [toNat_next_extend hone, hlast, List.length_singleton]
      omega
    rw [← List.singleton_append, ← extend_extend]
    exact ih hfirst (by rw [room_extend hone, List.length_singleton]; omega)

/-- **The numbers** of what extends a journal grow. -/
theorem Continues.growsFrom (h : j.Continues) (hfit : es.length ≤ j.room) :
    GrowsFrom j.records.length (j.extend es).records := by
  have hroom := j.next_add_room
  have hnew : ∀ {i r}, (j.extend es).records[i]? = some r → j.records.length ≤ i →
      r.lsn.toNat = j.next.toNat + (i - j.records.length) := by
    intro i r hr hi
    rw [Journal.extend, List.getElem?_append_right hi] at hr
    exact toNat_lsn_inRow hr (by omega)
  intro i k r q hr hq hi hk
  rw [UInt64.lt_iff_toNat_lt, hnew hr hi]
  by_cases hold : k < j.records.length
  · rw [Journal.extend, List.getElem?_append_left hold] at hq
    have := le_lastLsn (List.mem_of_getElem? hq)
    rw [Continues] at h
    omega
  · rw [hnew hq (Nat.not_lt.1 hold)]
    omega

/-! ## Loaded journals -/

/-- **Later numbers grow** after a text has been loaded, whatever is done with the journal then: the loaded records stay,
and each record that calls leave has a larger number than all records before it. A call comes back exactly if there are
numbers for all that it puts to the journal, and leaves as much of that as there are numbers for. -/
theorem later_numbers_grow (h : ofText? input = .ok j) (cs : List Call) :
    j.records <+: (j.callAll cs).records ∧ GrowsFrom j.records.length (j.callAll cs).records ∧
      ∀ c, ((j.callAll cs).comesBack c ↔
          lastLsn (j.callAll cs).records + ((j.callAll cs).submits c).length < 2 ^ 64 - 1) ∧
        ((j.callAll cs).call c).records.map JournalRecord.entry = (j.callAll cs).records.map JournalRecord.entry ++
          ((j.callAll cs).submits c).take (2 ^ 64 - 2 - lastLsn (j.callAll cs).records) := by
  have hfit := List.length_take_le j.room (j.submitted cs)
  have hj : j.Continues := next_of_text h
  obtain ⟨b, hall⟩ := callAll_eq j cs
  have hrecords : (j.callAll cs).records = (j.extend ((j.submitted cs).take j.room)).records := by rw [hall]
  have hcontinues : (j.callAll cs).Continues := by
    rw [hall]
    exact hj.extend hfit
  refine ⟨?_, ?_, fun c => ⟨?_, ?_⟩⟩
  · rw [hrecords]
    exact List.prefix_append _ _
  · rw [hrecords]
    exact hj.growsFrom hfit
  · have := (j.callAll cs).next_add_room
    rw [comesBack_iff]
    rw [Continues] at hcontinues
    omega
  · obtain ⟨b', hcall⟩ := (j.callAll cs).call_eq c
    rw [hcall, ← hcontinues.room]
    exact entries_extend _ _

/-- two records, and room for two more -/
def crowded : String := "\x7b\"lsn\":0,\"entry\":\x7b\"entry\":\"begin\",\"txn_id\":1\x7d\x7d\n" ++
  "\x7b\"lsn\":18446744073709551612,\"entry\":\x7b\"entry\":\"begin\",\"txn_id\":2\x7d\x7d\n"

/-- an entry, and a transaction of which only the first entry fits -/
def crowding : List Call := [.append (.begun 3), .commit 4 [] ⟨⟨2000, 1, 1, 0, 0, 0, 0, by decide⟩⟩]

theorem crowded_numbers_grow : ∃ j, ofText? crowded = .ok j ∧
    (j.callAll crowding).records.map JournalRecord.lsn =
      [0, 18446744073709551612, 18446744073709551613, 18446744073709551614] ∧
    GrowsFrom j.records.length (j.callAll crowding).records ∧ ¬ (j.callAll crowding).comesBack (.append (.begun 5)) := by
  have h : ofText? crowded = .ok ⟨[⟨0, .begun 1⟩, ⟨18446744073709551612, .begun 2⟩], 18446744073709551613, false⟩ := by
    decide +kernel
  obtain ⟨-, hgrow, hcall⟩ := later_numbers_grow h crowding
  refine ⟨_, h, by decide, hgrow, ?_⟩
  rw [(hcall _).1]
  decide

end Journal

end ConceptGraph
