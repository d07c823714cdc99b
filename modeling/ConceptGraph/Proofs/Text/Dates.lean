/-
Dates and moments are read back from their texts.

- `readDate?_append`, `readClock?_append`: the two halves of a date, with more text behind them.
- `LocalTime.ofText?_text`, `UtcTime.ofText?_text`: the whole texts.
-/
import ConceptGraph.Proofs.Text.DecimalDigits
import ConceptGraph.Time.UtcTime

namespace ConceptGraph

open Text

namespace LocalTime

variable {ds rest : List Char} {limit w n : Nat}

/-! ## Parts of a date -/

theorem readDigits?_append (hne : ds ≠ []) (hds : ∀ c ∈ ds, c.isDigit) (hle : ds.length ≤ limit)
    (hrest : StopsAt Char.isDigit rest) : readDigits? limit (ds ++ rest) = some (ds, rest) := by
  have hstops : StopsAt Char.isDigit (rest.take (limit - ds.length)) := fun c hc => hrest c (by
    cases rest with
    | nil => simp at hc
    | cons d rest => cases hk : limit - ds.length <;> simp_all)
  rw [readDigits?, List.take_append, List.take_of_length_le hle, takeWhile_append hds hstops, if_neg hne]
  simp

theorem dropBlanks_of_digits (hds : ∀ c ∈ ds, c.isDigit) (hne : ds ≠ []) : dropBlanks (ds ++ rest) = ds ++ rest := by
  obtain ⟨d, ds, rfl⟩ := List.exists_cons_of_ne_nil hne
  simp [dropBlanks, not_blank_of_isDigit (hds d (by simp))]

theorem readNumber?_padded (hw : 0 < w) (hn : n < 10 ^ w) (hle : w ≤ limit) (hrest : StopsAt Char.isDigit rest) :
    readNumber? limit (padded w n ++ rest) = some (n, rest) := by
  rw [readNumber?, dropBlanks_of_digits isDigit_padded padded_ne_nil,
    readDigits?_append padded_ne_nil isDigit_padded (by rwa [length_padded hw hn]) hrest]
  simp

theorem readMark?_cons {c : Char} (hc : isBlank c = false) : readMark? c (c :: rest) = some rest := by
  simp [readMark?, dropBlanks, hc]

/-- the digits of a signed year are read as far as they go -/
theorem readDigits?_padded (hrest : StopsAt Char.isDigit rest) :
    readDigits? (padded w n ++ rest).length (padded w n ++ rest) = some (padded w n, rest) :=
  readDigits?_append padded_ne_nil isDigit_padded (by simp) hrest

theorem readYear?_append (year : Int) (hrest : StopsAt Char.isDigit rest) :
    readYear? (yearText year ++ rest) = some (year, rest) := by
  unfold yearText
  split_ifs with hplain hneg
  · -- four digits, and no sign
    have hlt : year.natAbs < 10 ^ 4 := by omega
    have hread : readDigits? 4 (padded 4 year.natAbs ++ rest) = some (padded 4 year.natAbs, rest) :=
      readDigits?_append padded_ne_nil isDigit_padded (length_padded (by decide) hlt).le hrest
    have hnat : ((natOfDigits (padded 4 year.natAbs) : Nat) : Int) = year := by
      rw [natOfDigits_padded]
      omega
    rw [readYear?, dropBlanks_of_digits isDigit_padded padded_ne_nil]
    obtain ⟨d, ds, hds⟩ := List.exists_cons_of_ne_nil (padded_ne_nil : padded 4 year.natAbs ≠ [])
    have hd : d.isDigit := isDigit_padded d (by rw [hds]; simp)
    rw [hds] at hread hnat ⊢
    split
    · simp_all
    · simp_all
    · rw [hread, Option.map_some, hnat]
  · rw [List.cons_append, readYear?]
    show (readDigits? _ (padded 4 year.natAbs ++ rest)).map _ = _
    rw [readDigits?_padded hrest]
    simp only [Option.map_some, natOfDigits_padded]
    congr 2
    omega
  · rw [List.cons_append, readYear?]
    show (readDigits? _ (padded 4 year.natAbs ++ rest)).map _ = _
    rw [readDigits?_padded hrest]
    simp only [Option.map_some, natOfDigits_padded]
    congr 2
    omega

/-- nanoseconds are read back from the fewest digits that are exact -/
theorem readFraction?_append (hn : n < 1000000000) (hrest : StopsAt inDecimal rest) :
    readFraction? (fractionText n ++ rest) = some (n, rest) := by
  have hdrop : rest.dropWhile Char.isDigit = rest := dropWhile_of_stopsAt (stopsAt_isDigit hrest)
  have hread : ∀ {w m}, 0 < w → w ≤ 9 → m < 10 ^ w → readFraction? ('.' :: padded w m ++ rest) =
      some (m * 10 ^ (9 - w), rest) := by
    intro w m hw hle hm
    have hlength : (padded w m).length = w := length_padded hw hm
    show (readDigits? 9 (padded w m ++ rest)).map _ = _
    rw [readDigits?_append padded_ne_nil isDigit_padded (by omega) (stopsAt_isDigit hrest)]
    simp [hlength, hdrop]
  unfold fractionText
  split_ifs with h0 h3 h6
  · rw [List.nil_append, readFraction?, h0]
    rintro cs rfl
    simpa [inDecimal] using hrest '.' rfl
  · rw [hread (by decide) (by decide) (by omega)]
    congr 2
    omega
  · rw [hread (by decide) (by decide) (by omega)]
    congr 2
    omega
  · rw [hread (by decide) (by decide) (by omega)]
    simp

/-! ## Whole dates -/

theorem bounds (t : LocalTime) : t.month < 10 ^ 2 ∧ t.day < 10 ^ 2 ∧ t.hour < 10 ^ 2 ∧ t.minute < 10 ^ 2 ∧
    t.second < 10 ^ 2 ∧ t.nano < 1000000000 := by
  have hvalid := t.valid
  simp only [Calendar.isValid, Bool.and_eq_true, decide_eq_true_eq] at hvalid
  have hdays : Calendar.daysInMonth t.year t.month ≤ 31 := by
    unfold Calendar.daysInMonth
    split_ifs <;> decide
  omega

theorem ofParts?_parts (t : LocalTime) :
    ofParts? t.year t.month t.day t.hour t.minute t.second t.nano = some t := by
  rw [ofParts?, dif_pos t.valid]

/-- year, month and day -/
def dateText (t : LocalTime) : List Char := yearText t.year ++ '-' :: (padded 2 t.month ++ '-' :: padded 2 t.day)

/-- hour, minute, second and fraction -/
def clockText (t : LocalTime) : List Char :=
  padded 2 t.hour ++ ':' :: (padded 2 t.minute ++ ':' :: (padded 2 t.second ++ fractionText t.nano))

theorem toList_text (t : LocalTime) : t.text.toList = t.dateText ++ 'T' :: t.clockText := by
  simp [text, dateText, clockText]

theorem readDate?_append (t : LocalTime) (hrest : StopsAt Char.isDigit rest) :
    readDate? (t.dateText ++ rest) = some ((t.year, t.month, t.day), rest) := by
  obtain ⟨hmonth, hday, -⟩ := t.bounds
  have hdash : ∀ cs, StopsAt Char.isDigit ('-' :: cs) := fun cs => stopsAt_cons (by decide)
  simp only [dateText, List.append_assoc, List.cons_append, readDate?]
  simp only [readYear?_append t.year (hdash _), Option.bind_eq_bind, Option.bind_some, readMark?_cons (c := '-') rfl,
    readNumber?_padded (by decide) hmonth (Nat.le_refl 2) (hdash _),
    readNumber?_padded (by decide) hday (Nat.le_refl 2) hrest]
  rfl

theorem readClock?_append (t : LocalTime) (hrest : StopsAt inDecimal rest) :
    readClock? (t.clockText ++ rest) = some ((t.hour, t.minute, t.second, t.nano), dropBlanks rest) := by
  obtain ⟨-, -, hhour, hminute, hsecond, hnano⟩ := t.bounds
  have hcolon : ∀ cs, StopsAt Char.isDigit (':' :: cs) := fun cs => stopsAt_cons (by decide)
  have hfraction : StopsAt Char.isDigit (fractionText t.nano ++ rest) := by
    unfold fractionText
    split_ifs
    · exact stopsAt_isDigit hrest
    all_goals exact stopsAt_cons (by decide)
  simp only [clockText, List.append_assoc, List.cons_append, readClock?]
  simp only [readNumber?_padded (by decide) hhour (Nat.le_refl 2) (hcolon _), Option.bind_eq_bind, Option.bind_some,
    readMark?_cons (c := ':') rfl, readNumber?_padded (by decide) hminute (Nat.le_refl 2) (hcolon _),
    readNumber?_padded (by decide) hsecond (Nat.le_refl 2) hfraction, readFraction?_append hnano hrest]
  rfl

/-- **A date** is read back from its text. -/
theorem ofText?_text (t : LocalTime) : ofText? t.text = some t := by
  have hdate := t.readDate?_append (stopsAt_cons (by decide) : StopsAt Char.isDigit ('T' :: t.clockText))
  have hclock := t.readClock?_append stopsAt_nil
  rw [List.append_nil] at hclock
  rw [ofText?, toList_text]
  simp only [hdate, Option.bind_eq_bind, Option.bind_some, readMark?_cons (c := 'T') rfl, hclock]
  exact t.ofParts?_parts

end LocalTime

namespace UtcTime

open LocalTime

/-- no minutes later it is the same time -/
theorem addMinutes?_zero (t : LocalTime) : t.addMinutes? 0 = some t := by
  have hvalid := t.valid
  simp only [Calendar.isValid, Bool.and_eq_true, decide_eq_true_eq] at hvalid
  have hday : ((t.hour * 60 + t.minute + 0 : Int) % 1440).toNat = t.hour * 60 + t.minute := by omega
  have hhour : (t.hour * 60 + t.minute) / 60 = t.hour := by omega
  have hminute : (t.hour * 60 + t.minute) % 60 = t.minute := by omega
  rw [addMinutes?, if_neg (by omega), if_pos (by omega)]
  simp only [hday, hhour, hminute]
  exact t.ofParts?_parts

/-- **A moment** is read back from its text. -/
theorem ofText?_text (t : UtcTime) : ofText? t.text = some t := by
  have hdate := t.clock.readDate?_append (stopsAt_cons (by decide) : StopsAt Char.isDigit ('T' :: (t.clock.clockText ++ ['Z'])))
  have hclock := t.clock.readClock?_append (stopsAt_cons (by decide) : StopsAt inDecimal ['Z'])
  have hzone : readZone? (dropBlanks ['Z']) = some (0, []) := by decide
  have hend : dropBlanks [] = [] := rfl
  rw [ofText?, text, String.toList_append, LocalTime.toList_text]
  simp only [List.append_assoc, List.cons_append, show "Z".toList = ['Z'] from rfl, hdate, Option.bind_eq_bind,
    Option.bind_some, hclock, hzone, hend, t.clock.ofParts?_parts, Int.neg_zero, addMinutes?_zero]
  rfl

end UtcTime

end ConceptGraph
