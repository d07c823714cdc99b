/-
The numbers that a journal gives to its records, as long as there are any.

- `room`: how many more records a journal takes. `extend`: the journal with records of entries, numbered in a row.
- `appendAll_eq`: entries that are appended extend the journal by as many of them as there is room for. The call breaks
  off if that is not all of them.
- `Call`, `callAll`: what is done with a journal, one call after the other. `submitted`: the entries that are put to it.
- `callAll_eq`: any calls extend a journal by as many of the entries put to it as there is room for.
-/
import Mathlib.Tactic
import ConceptGraph.Journal.Basic

namespace ConceptGraph

namespace Journal

variable {j : Journal} {es : List JournalEntry} {next : Lsn} {r : JournalRecord} {i : ℕ}

/-! ## Numbers in a row -/

/-- records of the entries, with the numbers from `next` on -/
def inRow (next : Lsn) (es : List JournalEntry) : List JournalRecord := es.mapIdx fun i e => ⟨next + UInt64.ofNat i, e⟩

theorem entries_inRow (next : Lsn) (es : List JournalEntry) : (inRow next es).map JournalRecord.entry = es :=
  List.ext_getElem? fun i => by simp [inRow, Function.comp_def]

theorem inRow_append (next : Lsn) (es es' : List JournalEntry) :
    inRow next (es ++ es') = inRow next es ++ inRow (next + UInt64.ofNat es.length) es' := by
  simp only [inRow, List.mapIdx_append, UInt64.add_assoc, ← UInt64.ofNat_add, Nat.add_comm]

theorem lsn_inRow (hr : (inRow next es)[i]? = some r) : r.lsn = next + UInt64.ofNat i ∧ i < es.length := by
  rw [inRow, List.getElem?_mapIdx, Option.map_eq_some_iff] at hr
  obtain ⟨e, he, rfl⟩ := hr
  exact ⟨rfl, (List.getElem?_eq_some_iff.1 he).1⟩

/-- numbers that do not come round count up -/
theorem toNat_lsn_inRow (hr : (inRow next es)[i]? = some r) (hfit : next.toNat + es.length ≤ 2 ^ 64) :
    r.lsn.toNat = next.toNat + i := by
  obtain ⟨hlsn, hlt⟩ := lsn_inRow hr
  have hnext := next.toNat_lt
  rw [hlsn, UInt64.toNat_add, UInt64.toNat_ofNat_of_lt' (by simp only [UInt64.size]; omega)]
  exact Nat.mod_eq_of_lt (by omega)

/-! ## Room -/

/-- how many more records the journal takes -/
def room (j : Journal) : ℕ := lastNumber.toNat - j.next.toNat

theorem toNat_lastNumber : lastNumber.toNat = 2 ^ 64 - 1 := rfl

/-- the numbers that records can have -/
theorem ne_lastNumber_iff {n : Lsn} : n ≠ lastNumber ↔ n.toNat < 2 ^ 64 - 1 := by
  have := n.toNat_lt
  rw [ne_eq, ← UInt64.toNat_inj, toNat_lastNumber]
  omega

theorem next_add_room (j : Journal) : j.next.toNat + j.room = 2 ^ 64 - 1 := by
  have := j.next.toNat_lt
  rw [room, toNat_lastNumber]
  omega

theorem room_eq_zero : j.room = 0 ↔ j.next = lastNumber := by
  have := j.next_add_room
  rw [← not_iff_not, ← ne_eq, ← ne_eq, ne_lastNumber_iff]
  omega

/-- the journal with records of the entries, in a row -/
def extend (j : Journal) (es : List JournalEntry) : Journal :=
  { j with records := j.records ++ inRow j.next es, next := j.next + UInt64.ofNat es.length }

theorem extend_nil (j : Journal) : j.extend [] = j := by simp [extend, inRow]

theorem extend_extend (j : Journal) (es es' : List JournalEntry) : (j.extend es).extend es' = j.extend (es ++ es') := by
  simp only [extend, inRow_append, List.append_assoc, List.length_append, UInt64.ofNat_add, UInt64.add_assoc]

theorem entries_extend (j : Journal) (es : List JournalEntry) :
    (j.extend es).records.map JournalRecord.entry = j.records.map JournalRecord.entry ++ es := by
  rw [extend, List.map_append, entries_inRow]

theorem toNat_next_extend (h : es.length ≤ j.room) : (j.extend es).next.toNat = j.next.toNat + es.length := by
  have := j.next_add_room
  rw [extend, UInt64.toNat_add, UInt64.toNat_ofNat_of_lt' (by simp only [UInt64.size]; omega)]
  exact Nat.mod_eq_of_lt (by omega)

theorem room_extend (h : es.length ≤ j.room) : (j.extend es).room = j.room - es.length := by
  have := toNat_next_extend h
  have := j.next_add_room
  have := (j.extend es).next_add_room
  omega

theorem lsn_ne_lastNumber (h : es.length ≤ j.room) (hr : r ∈ inRow j.next es) : r.lsn ≠ lastNumber := by
  obtain ⟨i, hi⟩ := List.mem_iff_getElem?.1 hr
  have := j.next_add_room
  have := (lsn_inRow hi).2
  rw [ne_lastNumber_iff, toNat_lsn_inRow hi (by omega)]
  omega

/-- to extend a journal as far as there is room, twice -/
theorem extend_take_extend_take (j : Journal) (es es' : List JournalEntry) :
    (j.extend (es.take j.room)).extend (es'.take (j.extend (es.take j.room)).room) =
      j.extend ((es ++ es').take j.room) := by
  have hlength : j.room - (es.take j.room).length = j.room - es.length := by
    rw [List.length_take]
    omega
  rw [extend_extend, room_extend (List.length_take_le _ _), hlength, List.take_append]

/-- a journal that was empty counts its records -/
theorem lsns_of_empty (h : es.length ≤ empty.room) :
    (empty.extend es).records.map (fun r => r.lsn.toNat) =
      (List.range (empty.extend es).records.length).map (· + 1) := by
  refine List.ext_getElem? fun i => ?_
  rw [List.getElem?_map, List.getElem?_map]
  have hnext : empty.next.toNat = 1 := rfl
  have hroom := empty.next_add_room
  cases hr : (empty.extend es).records[i]? with
  | none => rw [List.getElem?_eq_none (by simpa using List.getElem?_eq_none_iff.1 hr), Option.map_none, Option.map_none]
  | some r =>
    have hlt := (List.getElem?_eq_some_iff.1 hr).1
    rw [List.getElem?_range hlt, Option.map_some, Option.map_some, toNat_lsn_inRow hr (by omega), hnext, Nat.add_comm]

/-! ## Entries -/

/-- **An entry** gets the next number if there is room for it. -/
theorem append_eq (j : Journal) (e : JournalEntry) :
    j.append e = (if j.room = 0 then none else some j.next, j.extend ([e].take j.room)) := by
  unfold append
  by_cases h : j.next = lastNumber
  · rw [if_pos h, room_eq_zero.2 h, if_pos rfl, List.take_zero, extend_nil]
  · obtain ⟨n, hn⟩ := Nat.exists_eq_succ_of_ne_zero fun hroom => h (room_eq_zero.1 hroom)
    rw [if_neg h, hn, if_neg (Nat.succ_ne_zero n), List.take_succ_cons, List.take_nil]
    simp [extend, inRow]

/-- **Entries** get the next numbers, as many of them as there is room for. -/
theorem appendAll_eq (j : Journal) (es : List JournalEntry) :
    j.appendAll es = (if es.length ≤ j.room then .ok () else .brokenOff, j.extend (es.take j.room)) := by
  induction es generalizing j with
  | nil => rw [appendAll, List.take_nil, extend_nil, List.length_nil, if_pos (Nat.zero_le _)]
  | cons e es ih =>
    rw [appendAll, append_eq]
    by_cases hroom : j.room = 0
    · simp [hroom, extend_nil]
    · have htake : [e].take j.room = [e] := List.take_of_length_le (Nat.one_le_iff_ne_zero.2 hroom)
      have hleft : (j.extend [e]).room = j.room - 1 := room_extend (Nat.one_le_iff_ne_zero.2 hroom)
      have hfits : es.length ≤ (j.extend [e]).room ↔ (e :: es).length ≤ j.room := by
        rw [hleft, List.length_cons]
        omega
      have hall := extend_take_extend_take j [e] es
      rw [htake, List.singleton_append] at hall
      rw [if_neg hroom, htake]
      show (j.extend [e]).appendAll es = _
      rw [ih, hall, if_congr hfits rfl rfl]

/-! ## Calls -/

/-- what can be done with a journal -/
inductive Call where
  | append (e : JournalEntry)
  | commit (txn : TxnId) (mutations : List Mutation) (now : UtcTime)
  | rejectNextCommit
  deriving DecidableEq, Repr

/-- the journal after a call -/
def call (j : Journal) : Call → Journal
  | .append e => (j.append e).2
  | .commit txn mutations now => (j.commit txn mutations now).2
  | .rejectNextCommit => j.rejectNextCommit

/-- whether the call comes back, rather than to break off -/
def comesBack (j : Journal) : Call → Bool
  | .append e => (j.append e).1.isSome
  | .commit txn mutations now => (j.commit txn mutations now).1 ≠ .brokenOff
  | .rejectNextCommit => true

/-- the journal after one call after the other, whether they come back or not -/
def callAll (j : Journal) (cs : List Call) : Journal := cs.foldl call j

/-- the entries that a call puts to the journal; a transaction that is refused is not put to it -/
def submits (j : Journal) : Call → List JournalEntry
  | .append e => [e]
  | .commit txn mutations now => if j.rejectNext then [] else entriesOf txn mutations now
  | .rejectNextCommit => []

/-- the entries that calls put to the journal, in order -/
def submitted (j : Journal) : List Call → List JournalEntry
  | [] => []
  | c :: cs => j.submits c ++ (j.call c).submitted cs

/-- **One call** extends the journal by the entries that it puts to it, as far as there is room. -/
theorem call_eq (j : Journal) (c : Call) :
    ∃ b, j.call c = { j.extend ((j.submits c).take j.room) with rejectNext := b } := by
  cases c with
  | append e => exact ⟨j.rejectNext, by rw [call, append_eq]; rfl⟩
  | commit txn mutations now =>
    rw [call, commit, submits]
    split_ifs
    · exact ⟨false, by rw [List.take_nil, extend_nil]⟩
    · exact ⟨j.rejectNext, by rw [appendAll_eq]; rfl⟩
  | rejectNextCommit => exact ⟨true, by rw [submits, List.take_nil, extend_nil]; rfl⟩

/-- a call comes back if there is room for all that it puts to the journal, and only then -/
theorem comesBack_iff (j : Journal) (c : Call) : j.comesBack c ↔ (j.submits c).length ≤ j.room := by
  cases c with
  | append e =>
    rw [comesBack, append_eq, submits, List.length_singleton]
    split_ifs <;> simp <;> omega
  | commit txn mutations now =>
    rw [comesBack, commit, submits]
    split_ifs with hreject
    · simp
    · rw [appendAll_eq]
      split_ifs with hfit <;> simp [hfit]
  | rejectNextCommit => simp [comesBack, submits]

/-- **Any calls** extend the journal by the entries that they put to it, as far as there is room. -/
theorem callAll_eq (j : Journal) (cs : List Call) :
    ∃ b, j.callAll cs = { j.extend ((j.submitted cs).take j.room) with rejectNext := b } := by
  induction cs generalizing j with
  | nil => exact ⟨j.rejectNext, by rw [submitted, List.take_nil, extend_nil]; rfl⟩
  | cons c cs ih =>
    obtain ⟨b, hcall⟩ := j.call_eq c
    obtain ⟨b', hrest⟩ := ih (j.call c)
    refine ⟨b', ?_⟩
    rw [submitted, ← extend_take_extend_take]
    show (j.call c).callAll cs = _
    rw [hrest, hcall]
    rfl

end Journal

end ConceptGraph
