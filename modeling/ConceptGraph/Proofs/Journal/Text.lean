/-
A journal is read from the text that it is written as.

- `linesOf_text`: the lines of the text are the records, one to a line; `mapM_lines`: what they read as, record by record.
- `exists_loadLines`, `loads_of_loadLines`: when lines are loaded, and what the journal is then. The next number is past
  every number that has been loaded (`next_of_text`).
- `text_loads_iff`: the text of a journal is loaded if the numbers in it are finite, and the last number goes to no record.
- `text_restores`: a journal of finite numbers survives its text, and goes on where it was.
-/
import ConceptGraph.Proofs.Journal.Data
import ConceptGraph.Proofs.Journal.Numbering

namespace ConceptGraph

namespace Journal

variable {line rest : List Char} {r : JournalRecord} {rs : List JournalRecord} {j : Journal}

/-! ## Lines -/

theorem splitLines_append (h : Json.Visible line) (rest : List Char) :
    splitLines (line ++ '\n' :: rest) = line :: splitLines rest := by
  induction line with
  | nil => rfl
  | cons c line ih =>
    obtain ⟨hc, hline⟩ := Json.visible_cons.1 h
    have hne : c ≠ '\n' := by
      rintro rfl
      exact absurd hc (by decide)
    rw [List.cons_append, splitLines, ih hline]
    exact hne

theorem dropReturn_of_visible (h : Json.Visible line) : dropReturn line = line := by
  rw [dropReturn, if_neg]
  intro hlast
  exact absurd (h '\r' (List.mem_of_getLast? hlast)) (by decide)

/-- a record is a line of its own, and no blank one -/
theorem visible_toJson (r : JournalRecord) : Json.Visible r.toJson.chars := Json.visible_chars _ r.proper_toJson.written

theorem not_blank_toJson (r : JournalRecord) : r.toJson.chars.all Text.isBlank = false := by
  obtain ⟨cs, hcs⟩ : ∃ cs, r.toJson.chars = '{' :: cs := ⟨_, by rw [JournalRecord.toJson, Json.record, Json.chars]⟩
  rw [hcs]
  rfl

/-- **The lines** of a text are its records. -/
theorem linesOf_text (rs : List JournalRecord) :
    linesOf (rs.flatMap fun r => r.toJson.chars ++ ['\n']) = rs.map fun r => r.toJson.chars := by
  unfold linesOf
  induction rs with
  | nil => rfl
  | cons r rs ih =>
    rw [List.flatMap_cons, List.append_assoc, List.singleton_append, splitLines_append (visible_toJson r), List.map_cons,
      dropReturn_of_visible (visible_toJson r), List.filter_cons_of_pos (by rw [not_blank_toJson]; rfl), ih, List.map_cons]

/-- **The text** of a journal reads as its records read, one by one. -/
theorem mapM_lines (j : Journal) : (linesOf j.text.toList).mapM recordOf? = j.records.mapM JournalRecord.reread := by
  have hread : (recordOf? ∘ fun r => r.toJson.chars) = JournalRecord.reread := funext fun r => by
    rw [Function.comp_apply, recordOf?, Json.parseChars?_chars r.proper_toJson.written, Option.bind_some, r.ofJson?_toJson]
  rw [text, String.toList_ofList, linesOf_text, List.mapM_map, hread]

/-- a record keeps its number, whatever else is read of it -/
theorem lsns_reread (h : j.records.mapM JournalRecord.reread = some rs) :
    rs.map (fun r => r.lsn.toNat) = j.records.map fun r => r.lsn.toNat :=
  map_of_mapM (fun r r' h => by
    obtain ⟨e, -, rfl⟩ := Option.map_eq_some_iff.1 h
    rfl) h

/-! ## Numbers -/

/-- the largest number of the records, or 0 -/
def lastLsn (rs : List JournalRecord) : ℕ := (rs.map fun r => r.lsn.toNat).max?.getD 0

theorem lastLsn_cons (r : JournalRecord) (rs : List JournalRecord) : lastLsn (r :: rs) = max r.lsn.toNat (lastLsn rs) := by
  rw [lastLsn, lastLsn, List.map_cons, List.max?_cons]
  cases (rs.map fun r => r.lsn.toNat).max? <;> simp

/-- what is loaded, if it is: the records come after those that are there, and the next number is past all of theirs -/
structure Loads (rs : List JournalRecord) (j j' : Journal) : Prop where
  bounded : ∀ r ∈ rs, r.lsn ≠ lastNumber
  records : j'.records = j.records ++ rs
  next : j'.next.toNat = max j.next.toNat (lastLsn rs + 1)

/-- one record -/
theorem load_spec (hr : r.lsn ≠ lastNumber) : ∃ j', j.load r = some j' ∧ j'.records = j.records ++ [r] ∧
    j'.next.toNat = max j.next.toNat (r.lsn.toNat + 1) := by
  refine ⟨_, if_neg hr, rfl, ?_⟩
  have hsucc : (r.lsn + 1).toNat = r.lsn.toNat + 1 := by
    have := ne_lastNumber_iff.1 hr
    rw [UInt64.toNat_add]
    exact Nat.mod_eq_of_lt (by simp; omega)
  dsimp only
  split_ifs with hlt
  · rw [UInt64.lt_iff_toNat_lt, hsucc] at hlt
    omega
  · rw [UInt64.lt_iff_toNat_lt, hsucc] at hlt
    omega

/-- **Lines are loaded** if they hold records, none of them with the last number that there is. -/
theorem exists_loadLines {lines : List (List Char)} (h : lines.mapM recordOf? = some rs)
    (hrs : ∀ r ∈ rs, r.lsn ≠ lastNumber) : ∃ j', j.loadLines lines = .ok j' := by
  induction lines generalizing j rs with
  | nil => exact ⟨j, rfl⟩
  | cons line lines ih =>
    obtain ⟨r, rs, hr, hlines, rfl⟩ := mapM_cons_eq_some.1 h
    obtain ⟨hlast, hrest⟩ := List.forall_mem_cons.1 hrs
    obtain ⟨j', hload, -⟩ := load_spec (j := j) hlast
    rw [loadLines, hr]
    dsimp only
    rw [hload]
    exact ih hlines hrest

/-- **What has been loaded** is what the lines hold. -/
theorem loads_of_loadLines {lines : List (List Char)} {j' : Journal} (hpos : 1 ≤ j.next.toNat)
    (h : j.loadLines lines = .ok j') : ∃ rs, lines.mapM recordOf? = some rs ∧ Loads rs j j' := by
  induction lines generalizing j with
  | nil =>
    obtain rfl := Outcome.ok.inj h
    refine ⟨[], List.mapM_nil, ?_, (List.append_nil _).symm, ?_⟩
    · exact fun r hr => absurd hr List.not_mem_nil
    · rw [show lastLsn [] = 0 from rfl, Nat.zero_add, Nat.max_eq_left hpos]
  | cons line lines ih =>
    rw [loadLines] at h
    cases hr : recordOf? line with
    | none => simp [hr] at h
    | some r =>
      by_cases hlast : r.lsn = lastNumber
      · simp [hr, load, hlast] at h
      · obtain ⟨j₁, hload, hrecords, hnext⟩ := load_spec (j := j) hlast
        simp only [hr, hload] at h
        obtain ⟨rs, hrs, hloads⟩ := ih (by omega) h
        refine ⟨r :: rs, mapM_cons_eq_some.2 ⟨r, rs, hr, hrs, rfl⟩, ?_, ?_, ?_⟩
        · exact List.forall_mem_cons.2 ⟨hlast, hloads.bounded⟩
        · rw [hloads.records, hrecords, List.append_assoc, List.singleton_append]
        · rw [hloads.next, hnext, lastLsn_cons]
          omega

/-- **The next number** after a text has been loaded is the one after the largest number in it. -/
theorem next_of_text {input : String} (h : ofText? input = .ok j) : j.next.toNat = lastLsn j.records + 1 := by
  obtain ⟨rs, -, hloads⟩ := loads_of_loadLines (by decide) h
  rw [hloads.next, hloads.records]
  exact Nat.max_eq_right (Nat.le_add_left 1 _)

/-! ## Journals -/

/-- **A text is loaded** if all the numbers in the journal are finite and none of its records has the last number that
there is, and only then. -/
theorem text_loads_iff (j : Journal) :
    (∃ j', ofText? j.text = .ok j') ↔ ∀ r ∈ j.records, r.isFinite ∧ r.lsn ≠ lastNumber := by
  have hsome : (j.records.mapM JournalRecord.reread).isSome ↔ ∀ r ∈ j.records, r.isFinite := by
    rw [isSome_mapM]
    simp only [JournalRecord.isSome_reread]
  have hbound : ∀ {rs}, j.records.mapM JournalRecord.reread = some rs →
      ((∀ r ∈ rs, r.lsn ≠ lastNumber) ↔ ∀ r ∈ j.records, r.lsn ≠ lastNumber) := by
    intro rs hrs
    have h := lsns_reread hrs
    have hmap : ∀ l : List JournalRecord,
        (∀ r ∈ l, r.lsn ≠ lastNumber) ↔ ∀ n ∈ l.map fun r => r.lsn.toNat, n < 2 ^ 64 - 1 := by
      intro l
      simp only [ne_lastNumber_iff, List.forall_mem_map]
    rw [hmap, hmap, h]
  rw [forall₂_and, ← hsome, ofText?]
  constructor
  · rintro ⟨j', hj'⟩
    obtain ⟨rs, hrs, hloads⟩ := loads_of_loadLines (by decide) hj'
    rw [mapM_lines] at hrs
    exact ⟨by rw [hrs, Option.isSome_some], (hbound hrs).1 hloads.bounded⟩
  · rintro ⟨hfinite, hlsn⟩
    obtain ⟨rs, hrs⟩ := Option.isSome_iff_exists.1 hfinite
    exact exists_loadLines (by rw [mapM_lines, hrs]) ((hbound hrs).2 hlsn)

/-- **A journal survives its text**, if its numbers are finite. The records are the same in the same order, up to what the
digits of a number read as: exactly the same, if those are read exactly. The next record gets the number after the largest
one; but if that is the last number that there is, no record gets it, and the call breaks off. -/
theorem text_restores (j : Journal) (hlsn : ∀ r ∈ j.records, r.lsn.toNat < 2 ^ 64 - 1)
    (hfinite : ∀ r ∈ j.records, r.isFinite) : ∃ j', ofText? j.text = .ok j' ∧
      j.records.map JournalRecord.reread = j'.records.map some ∧
      ((∀ r ∈ j.records, r.isExact) → j'.records = j.records) ∧
      (lastLsn j.records < 2 ^ 64 - 2 → ∀ e, ∃ lsn, (j'.append e).1 = some lsn ∧
        (j'.append e).2.records = j'.records ++ [⟨lsn, e⟩] ∧ lsn.toNat = lastLsn j.records + 1) ∧
      (lastLsn j.records = 2 ^ 64 - 2 → ∀ e, j'.append e = (none, j')) := by
  obtain ⟨j', hj'⟩ := (text_loads_iff j).2 fun r hr => ⟨hfinite r hr, ne_lastNumber_iff.2 (hlsn r hr)⟩
  have hnext := next_of_text hj'
  obtain ⟨rs, hread, hloads⟩ := loads_of_loadLines (by decide) hj'
  obtain rfl : j'.records = rs := hloads.records
  rw [mapM_lines] at hread
  have hmap := mapM_eq_some.1 hread
  have hlast : lastLsn j'.records = lastLsn j.records := by rw [lastLsn, lastLsn, lsns_reread hread]
  have hroom := j'.next_add_room
  rw [hlast] at hnext
  refine ⟨j', hj', hmap, fun hexact => ?_, fun hlt e => ⟨j'.next, ?_, ?_, hnext⟩, fun heq e => ?_⟩
  · have hsame : j.records.map JournalRecord.reread = j.records.map some :=
      List.map_congr_left fun r hr => JournalRecord.reread_of_isExact (hexact r hr)
    exact (List.map_inj_right fun _ _ => Option.some.inj).1 (hmap.symm.trans hsame)
  · rw [append_eq, if_neg (by omega)]
  · have htake : [e].take j'.room = [e] := List.take_of_length_le (by rw [List.length_singleton]; omega)
    rw [append_eq, htake]
    simp [extend, inRow]
  · have hnone : j'.room = 0 := by omega
    rw [append_eq, if_pos hnone, hnone, List.take_zero, extend_nil]

/-- a journal with numbers out of order and twice, and with texts that need escapes -/
def ledger : Journal :=
  ⟨[⟨5, .begun 2⟩,
    ⟨5, .applied 2 (.defineType ⟨7⟩ "\"nick\"\\\n\t\r\x01 é 名" .attribute ⟨4⟩)⟩,
    ⟨3, .applied 2 (.setDataType ⟨7⟩ .double)⟩,
    ⟨11, .applied 2 (.putAttribute ⟨8⟩ ⟨7⟩ (.double ⟨0x3FB999999999999A⟩))⟩,
    ⟨9, .applied 2 (.putAttribute ⟨9⟩ ⟨7⟩ (.float ⟨0xC0200000⟩))⟩,
    ⟨10, .applied 2 (.putAttribute ⟨10⟩ ⟨7⟩ (.date ⟨-44, 3, 15, 12, 0, 60, 500000000, by decide⟩))⟩,
    ⟨11, .applied 2 (.putAttribute ⟨11⟩ ⟨7⟩ (.long (-9223372036854775808)))⟩,
    ⟨4, .applied 2 (.setHas ⟨12⟩ ⟨11⟩ ⟨13⟩)⟩,
    ⟨0, .committed 2 ⟨⟨1970, 1, 1, 0, 0, 0, 1, by decide⟩⟩⟩], 1, false⟩

/-- one record, with the last number that a record can have -/
def fullLedger : Journal := ⟨[⟨18446744073709551614, .begun 1⟩], lastNumber, false⟩

theorem ledgers_restored :
    (∃ j', ofText? ledger.text = .ok j' ∧ j'.records = ledger.records ∧ ∀ e, ∃ lsn, (j'.append e).1 = some lsn ∧
      (j'.append e).2.records = ledger.records ++ [⟨lsn, e⟩] ∧ lsn.toNat = 12) ∧
    ∃ j', ofText? fullLedger.text = .ok j' ∧ j'.records = fullLedger.records ∧ ∀ e, j'.append e = (none, j') := by
  constructor
  · obtain ⟨j', hj', -, hexact, hnext, -⟩ := text_restores ledger (by decide) (by decide +kernel)
    have hsame : j'.records = ledger.records := hexact (by decide +kernel)
    refine ⟨j', hj', hsame, fun e => ?_⟩
    obtain ⟨lsn, hlsn, happend, hnat⟩ := hnext (by decide) e
    exact ⟨lsn, hlsn, by rw [happend, hsame], hnat.trans (by decide)⟩
  · obtain ⟨j', hj', -, hexact, -, hlast⟩ := text_restores fullLedger (by decide) (by decide +kernel)
    exact ⟨j', hj', hexact (by decide +kernel), hlast (by decide)⟩

end Journal

end ConceptGraph
