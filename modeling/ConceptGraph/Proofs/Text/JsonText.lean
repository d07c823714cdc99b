/-
Data texts are read back as they were written.

- `Numeral.WellWritten`, `Json.WellWritten`: a number has the digits that it needs, and strings have content. Numbers made
  of whole numbers are well written.
- `readNumeral?_text`, `readString?_append`: a number or a string, with more text behind it.
- `readValue?_chars`: a value, by induction on it; as much fuel is enough as there are characters.
- `parseChars?_chars`: the text of a value holds that value and no other. It is one line (`visible_chars`).
-/
import ConceptGraph.Json.Reader
import ConceptGraph.Proofs.Text.DecimalDigits

namespace ConceptGraph

open Text

/-! ## Numbers -/

namespace Numeral

/-- digits where digits have to be, and no zero in front of others -/
structure WellWritten (n : Numeral) : Prop where
  whole : ∀ c ∈ n.whole, c.isDigit
  leading : n.whole = ['0'] ∨ n.whole ≠ [] ∧ n.whole.head? ≠ some '0'
  fraction : ∀ c ∈ n.fraction, c.isDigit
  exponent : ∀ e ∈ n.exponent, e.2 ≠ [] ∧ ∀ c ∈ e.2, c.isDigit

theorem leading_toDigits (n : Nat) : Nat.toDigits 10 n = ['0'] ∨ Nat.toDigits 10 n ≠ [] ∧ (Nat.toDigits 10 n).head? ≠ some '0' := by
  by_cases hn : n = 0
  · exact Or.inl (hn ▸ Nat.toDigits_zero 10)
  · exact Or.inr ⟨Nat.toDigits_ne_nil, head_toDigits hn⟩

theorem wellWritten_ofNat (n : Nat) : (ofNat n).WellWritten := ⟨isDigit_toDigits, leading_toDigits n, nofun, nofun⟩

theorem wellWritten_ofInt (i : Int) : (ofInt i).WellWritten := ⟨isDigit_toDigits, leading_toDigits _, nofun, nofun⟩

end Numeral

namespace Json

variable {rest ds : List Char} {n : Numeral} {c : Char}

/-- the characters that a number can go on with -/
def inNumber (c : Char) : Bool := inDecimal c || c == 'e' || c == 'E'

theorem stopsAt_inDecimal (h : StopsAt inNumber rest) : StopsAt inDecimal rest := fun c hc => by
  have := h c hc
  simp_all [inNumber]

theorem readDigits?_append (hne : ds ≠ []) (hds : ∀ c ∈ ds, c.isDigit) (hrest : StopsAt Char.isDigit rest) :
    readDigits? (ds ++ rest) = some (ds, rest) := by
  rw [readDigits?, takeWhile_append hds hrest, dropWhile_append hds hrest, if_neg hne]

theorem readWhole?_append (h : n.WellWritten) (hrest : StopsAt Char.isDigit rest) :
    readWhole? (n.whole ++ rest) = some (n.whole, rest) := by
  rcases h.leading with hzero | ⟨hne, hhead⟩
  · rw [hzero]
    rfl
  · obtain ⟨d, ds, hds⟩ := List.exists_cons_of_ne_nil hne
    have hd : d ≠ '0' := fun he => hhead (by rw [hds, he]; rfl)
    have hdigits := h.whole
    rw [hds] at hdigits ⊢
    rw [List.cons_append, readWhole?]
    · exact readDigits?_append (by simp) hdigits hrest
    · rintro cs ⟨⟩
      exact hd rfl

theorem readFraction?_append (hds : ∀ c ∈ ds, c.isDigit) (hrest : StopsAt inDecimal rest) :
    readFraction? (Numeral.fractionText ds ++ rest) = some (ds, rest) := by
  cases ds with
  | nil =>
    rw [Numeral.fractionText, List.nil_append, readFraction?]
    rintro cs rfl
    simpa [inDecimal] using hrest '.' rfl
  | cons d ds => exact readDigits?_append (by simp) hds (stopsAt_isDigit hrest)

theorem readExponent?_append {e : Option (Bool × List Char)} (he : ∀ x ∈ e, x.2 ≠ [] ∧ ∀ c ∈ x.2, c.isDigit)
    (hrest : StopsAt inNumber rest) : readExponent? (Numeral.exponentText e ++ rest) = some (e, rest) := by
  cases e with
  | none =>
    rw [Numeral.exponentText, List.nil_append, readExponent?]
    · rintro cs rfl
      simpa [inNumber] using hrest 'e' rfl
    · rintro cs rfl
      simpa [inNumber] using hrest 'E' rfl
  | some x =>
    obtain ⟨negative, ds⟩ := x
    obtain ⟨hne, hds⟩ := he _ rfl
    have hread := readDigits?_append hne hds (stopsAt_isDigit (stopsAt_inDecimal hrest))
    cases negative <;> simp [Numeral.exponentText, readExponent?, readSigned?, hread]

theorem stopsAt_exponentText {e : Option (Bool × List Char)} (hrest : StopsAt inNumber rest) :
    StopsAt inDecimal (Numeral.exponentText e ++ rest) := by
  cases e with
  | none => exact stopsAt_inDecimal hrest
  | some x => exact stopsAt_cons (by decide)

theorem stopsAt_fractionText (hrest : StopsAt inDecimal rest) :
    StopsAt Char.isDigit (Numeral.fractionText ds ++ rest) := by
  cases ds with
  | nil => exact stopsAt_isDigit hrest
  | cons d ds => exact stopsAt_cons (by decide)

/-- what follows the sign of a number -/
theorem whole_eq_cons (h : n.WellWritten) : ∃ d ds, n.whole = d :: ds ∧ d.isDigit := by
  have hne : n.whole ≠ [] := by
    rcases h.leading with hzero | ⟨hne, -⟩
    · simp [hzero]
    · exact hne
  obtain ⟨d, ds, hds⟩ := List.exists_cons_of_ne_nil hne
  exact ⟨d, ds, hds, h.whole d (by simp [hds])⟩

theorem readSign_append (h : n.WellWritten) :
    readSign ((if n.negative then ['-'] else []) ++ n.whole ++ rest) = (n.negative, n.whole ++ rest) := by
  cases hneg : n.negative with
  | true => rfl
  | false =>
    obtain ⟨d, ds, hds, hd⟩ := whole_eq_cons h
    simp only [Bool.false_eq_true, if_false, List.nil_append, hds, List.cons_append]
    rw [readSign]
    rintro cs ⟨⟩
    exact absurd hd (by decide)

/-- **A number** is read back from its text. -/
theorem readNumeral?_text (h : n.WellWritten) (hrest : StopsAt inNumber rest) :
    readNumeral? (n.text ++ rest) = some (n, rest) := by
  have hexponent : StopsAt inDecimal (Numeral.exponentText n.exponent ++ rest) := stopsAt_exponentText hrest
  have hfraction : StopsAt Char.isDigit (Numeral.fractionText n.fraction ++ (Numeral.exponentText n.exponent ++ rest)) :=
    stopsAt_fractionText hexponent
  simp only [Numeral.text, List.append_assoc]
  rw [← List.append_assoc, readNumeral?, readSign_append h]
  simp only [readWhole?_append h hfraction, Option.bind_eq_bind, Option.bind_some,
    readFraction?_append h.fraction hexponent, readExponent?_append h.exponent hrest]
  rfl

/-! ## Strings -/

/-- two hexadecimal digits are enough for a control character -/
theorem hexNumber?_control : ∀ n < 0x20, hexNumber? ['0', '0', Nat.digitChar (n / 16), Nat.digitChar (n % 16)] = some n := by
  decide

/-- how one character is read, and what it contributes to the string -/
theorem readParts?_escaped (c : Char) : ∃ part, (∀ cs, readParts? (escaped c ++ cs) =
    (readParts? cs).map fun r => (part :: r.1, r.2)) ∧
    ∀ ps, joinParts? (part :: ps) = (joinParts? ps).map (c :: ·) := by
  by_cases hshort : c = '"' ∨ c = '\\' ∨ c = '\n' ∨ c = '\r' ∨ c = '\t' ∨ c = '\x08' ∨ c = '\x0c'
  · refine ⟨.inl c, fun cs => ?_, fun ps => rfl⟩
    rcases hshort with rfl | rfl | rfl | rfl | rfl | rfl | rfl <;>
      simp [escaped, readParts?, shortEscape?, Option.map_eq_bind]
  · obtain ⟨hquote, hslash, hn, hr, ht, hb, hf⟩ : c ≠ '"' ∧ c ≠ '\\' ∧ c ≠ '\n' ∧ c ≠ '\r' ∧ c ≠ '\t' ∧ c ≠ '\x08' ∧
        c ≠ '\x0c' := by simpa only [not_or] using hshort
    by_cases hcontrol : c.toNat < 0x20
    · -- a control character without a letter of its own is given by its number
      refine ⟨.inr c.toNat, fun cs => ?_, fun ps => ?_⟩
      · simp [escaped, hquote, hslash, hn, hr, ht, hb, hf, hcontrol, readParts?, hexNumber?_control, Option.map_eq_bind]
      · have hleading : isLeadingHalf c.toNat = false := by
          simp only [isLeadingHalf, Bool.and_eq_false_iff, decide_eq_false_iff_not]
          omega
        have htrailing : isTrailingHalf c.toNat = false := by
          simp only [isTrailingHalf, Bool.and_eq_false_iff, decide_eq_false_iff_not]
          omega
        rw [joinParts?.eq_def]
        simp [hleading, htrailing, Char.ofNat_toNat]
    · refine ⟨.inl c, fun cs => ?_, fun ps => rfl⟩
      simp only [escaped, hquote, hslash, hn, hr, ht, hb, hf, hcontrol, if_false, List.singleton_append]
      rw [readParts?.eq_def]
      split <;> simp_all [Option.map_eq_bind]

theorem readParts?_flatMap (cs rest : List Char) : ∃ ps,
    readParts? (cs.flatMap escaped ++ '"' :: rest) = some (ps, rest) ∧ joinParts? ps = some cs := by
  induction cs with
  | nil => exact ⟨[], by simp [readParts?], rfl⟩
  | cons c cs ih =>
    obtain ⟨ps, hread, hjoin⟩ := ih
    obtain ⟨part, hpart, hjoined⟩ := readParts?_escaped c
    refine ⟨part :: ps, ?_, by rw [hjoined, hjoin, Option.map_some]⟩
    rw [List.flatMap_cons, List.append_assoc, hpart, hread, Option.map_some]

/-- **A string** is read back from its text, after the opening quote. -/
theorem readString?_append (s : String) (rest : List Char) :
    readString? (s.toList.flatMap escaped ++ '"' :: rest) = some (some s, rest) := by
  obtain ⟨ps, hread, hjoin⟩ := readParts?_flatMap s.toList rest
  simp [readString?, hread, hjoin]

/-! ## Values -/

mutual

/-- strings have content, and numbers their digits -/
def WellWritten : Json → Prop
  | .number n => n.WellWritten
  | .string s => s.isSome
  | .array items => AllWellWritten items
  | .object fields => FieldsWellWritten fields
  | _ => True

def AllWellWritten : List Json → Prop
  | [] => True
  | j :: js => WellWritten j ∧ AllWellWritten js

def FieldsWellWritten : List (Option String × Json) → Prop
  | [] => True
  | (k, j) :: fs => k.isSome ∧ WellWritten j ∧ FieldsWellWritten fs

end

/-- a number starts with its sign or a digit -/
theorem text_eq_cons (h : n.WellWritten) : ∃ c cs, n.text = c :: cs ∧ (c = '-' ∨ c.isDigit) := by
  obtain ⟨d, ds, hds, hd⟩ := whole_eq_cons h
  cases hneg : n.negative with
  | true => exact ⟨'-', _, by rw [Numeral.text, hneg]; rfl, Or.inl rfl⟩
  | false => exact ⟨d, _, by rw [Numeral.text, hneg, hds]; rfl, Or.inr hd⟩

/-- no value starts with white space, or with the end of an array -/
theorem chars_eq_cons {j : Json} (h : j.WellWritten) : ∃ c cs, j.chars = c :: cs ∧ isSpace c = false ∧ c ≠ ']' := by
  cases j with
  | null => exact ⟨_, _, rfl, by decide, by decide⟩
  | bool b => cases b <;> exact ⟨_, _, rfl, by decide, by decide⟩
  | number n =>
    obtain ⟨c, cs, hcs, hc⟩ := text_eq_cons h
    refine ⟨c, cs, by rw [chars, hcs], ?_, ?_⟩
    · rcases hc with rfl | hc
      · rfl
      · by_contra hspace
        simp only [Bool.not_eq_false, isSpace, Bool.or_eq_true, beq_iff_eq] at hspace
        rcases hspace with ((rfl | rfl) | rfl) | rfl <;> cases hc
    · rintro rfl
      rcases hc with hc | hc <;> cases hc
  | string s => exact ⟨_, _, rfl, by decide, by decide⟩
  | array items => exact ⟨_, _, by rw [chars], by decide, by decide⟩
  | object fields => exact ⟨_, _, by rw [chars], by decide, by decide⟩

theorem skipSpace_of_stopsAt {cs : List Char} (h : StopsAt isSpace cs) : skipSpace cs = cs := dropWhile_of_stopsAt h

theorem skipSpace_chars {j : Json} (h : j.WellWritten) (rest : List Char) : skipSpace (j.chars ++ rest) = j.chars ++ rest := by
  obtain ⟨c, cs, hcs, hspace, -⟩ := chars_eq_cons h
  rw [hcs]
  exact skipSpace_of_stopsAt (stopsAt_cons hspace)

/-- what starts with a sign or a digit is read as a number -/
theorem readValue?_number {fuel : Nat} (h : n.WellWritten) (hrest : StopsAt inNumber rest) :
    readValue? (fuel + 1) (n.text ++ rest) = some (.number n, rest) := by
  have hskip := skipSpace_chars (j := .number n) h rest
  rw [chars] at hskip
  obtain ⟨c, cs, hcs, hc⟩ := text_eq_cons h
  rw [readValue?, hskip]
  have hread := readNumeral?_text h hrest
  rw [hcs] at hread ⊢
  split <;> simp_all

/-- characters after which a value has ended -/
theorem stopsAt_mark {c : Char} (h : c = ',' ∨ c = ']' ∨ c = '}') : StopsAt inNumber (c :: rest) := by
  rcases h with rfl | rfl | rfl <;> exact stopsAt_cons (by decide)

theorem skipSpace_mark {c : Char} (h : isSpace c = false) : skipSpace (c :: rest) = c :: rest :=
  skipSpace_of_stopsAt (stopsAt_cons h)

theorem itemsChars_eq_cons {j : Json} {js : List Json} (h : AllWellWritten (j :: js)) :
    ∃ c cs, itemsChars (j :: js) = c :: cs ∧ isSpace c = false ∧ c ≠ ']' := by
  obtain ⟨c, cs, hcs, hc⟩ := chars_eq_cons h.1
  cases js with
  | nil => exact ⟨c, _, by rw [itemsChars, hcs]; rfl, hc⟩
  | cons i js => exact ⟨c, _, by rw [itemsChars, hcs]; rfl; simp, hc⟩

theorem fieldsChars_eq_cons (f : Option String × Json) (fs : List (Option String × Json)) :
    ∃ cs, fieldsChars (f :: fs) = '"' :: cs := by
  obtain ⟨k, j⟩ := f
  cases fs with
  | nil => exact ⟨_, by rw [fieldsChars]; rfl⟩
  | cons g fs => exact ⟨_, by rw [fieldsChars]; rfl; simp⟩

/-- after the name of a field comes its value, and then more fields or the end -/
theorem readFields?_name (k : String) (fuel : Nat) (cs : List Char) :
    readFields? (fuel + 1) (stringText (some k) ++ ':' :: cs) = (readValue? fuel cs).bind fun r =>
      match skipSpace r.2 with
      | ',' :: cs => (readFields? fuel cs).bind fun s => some ((some k, r.1) :: s.1, s.2)
      | '}' :: cs => some ([(some k, r.1)], cs)
      | _ => none := by
  have hstring := readString?_append k (':' :: cs)
  rw [readFields?, stringText, Option.getD_some, List.cons_append, List.cons_append, List.append_assoc,
    skipSpace_mark (by decide)]
  show (readString? (k.toList.flatMap escaped ++ '"' :: ':' :: cs)).bind _ = _
  rw [hstring]
  rfl

mutual

/-- **A value** is read back from its text, whatever follows, unless that could belong to a number. -/
theorem readValue?_chars : ∀ (j : Json) (fuel : Nat) (rest : List Char), j.WellWritten → j.chars.length ≤ fuel →
    StopsAt inNumber rest → readValue? fuel (j.chars ++ rest) = some (j, rest)
  | j, 0, _, h, hfuel, _ => by
    obtain ⟨c, cs, hcs, -⟩ := chars_eq_cons h
    simp [hcs] at hfuel
  | .null, fuel + 1, rest, h, _, _ => by
    rw [readValue?, skipSpace_chars h]
    rfl
  | .bool true, fuel + 1, rest, h, _, _ => by
    rw [readValue?, skipSpace_chars h]
    rfl
  | .bool false, fuel + 1, rest, h, _, _ => by
    rw [readValue?, skipSpace_chars h]
    rfl
  | .number n, fuel + 1, rest, h, _, hrest => readValue?_number h hrest
  | .string none, fuel + 1, rest, h, _, _ => by cases h
  | .string (some s), fuel + 1, rest, h, _, _ => by
    rw [readValue?, skipSpace_chars h]
    simp [chars, stringText, readString?_append]
  | .array [], fuel + 1, rest, h, _, _ => by
    rw [readValue?, skipSpace_chars h]
    rfl
  | .array (j :: js), fuel + 1, rest, h, hfuel, _ => by
    have hitems := readItems?_itemsChars j js fuel rest h (by simpa [chars] using hfuel)
    obtain ⟨c, cs, hcs, hspace, hne⟩ := itemsChars_eq_cons h
    rw [readValue?, skipSpace_chars h, chars]
    rw [hcs] at hitems ⊢
    simp only [List.cons_append, skipSpace_mark hspace]
    split <;> simp_all
  | .object [], fuel + 1, rest, h, _, _ => by
    rw [readValue?, skipSpace_chars h]
    rfl
  | .object (f :: fs), fuel + 1, rest, h, hfuel, _ => by
    have hfields := readFields?_fieldsChars f.1 f.2 fs fuel rest h (by simpa [chars] using hfuel)
    obtain ⟨cs, hcs⟩ := fieldsChars_eq_cons f fs
    rw [readValue?, skipSpace_chars h, chars]
    rw [hcs] at hfields ⊢
    show (readFields? fuel ('"' :: (cs ++ rest))).map _ = _
    rw [← List.cons_append, hfields]
    rfl

/-- the items of an array, and its closing bracket -/
theorem readItems?_itemsChars : ∀ (j : Json) (js : List Json) (fuel : Nat) (rest : List Char), AllWellWritten (j :: js) →
    (itemsChars (j :: js)).length ≤ fuel → readItems? fuel (itemsChars (j :: js) ++ rest) = some (j :: js, rest)
  | j, js, 0, rest, h, hfuel => by
    obtain ⟨c, cs, hcs, -⟩ := itemsChars_eq_cons h
    simp [hcs] at hfuel
  | j, [], fuel + 1, rest, h, hfuel => by
    have hj := readValue?_chars j fuel (']' :: rest) h.1 (by simpa [itemsChars] using hfuel) (stopsAt_mark (by simp))
    rw [itemsChars, readItems?, List.append_assoc, List.singleton_append, hj]
    rfl
  | j, i :: js, fuel + 1, rest, h, hfuel => by
    have hlength : (itemsChars (j :: i :: js)).length = j.chars.length + 1 + (itemsChars (i :: js)).length := by
      rw [itemsChars]
      · simp; omega
      · simp
    have hj := readValue?_chars j fuel (',' :: (itemsChars (i :: js) ++ rest)) h.1 (by omega) (stopsAt_mark (by simp))
    have hjs := readItems?_itemsChars i js fuel rest h.2 (by omega)
    rw [itemsChars, readItems?, List.append_assoc, List.cons_append, hj]
    · show ((readItems? fuel (itemsChars (i :: js) ++ rest)).bind _) = _
      rw [hjs]
      rfl
    · simp

/-- the fields of an object, and its closing brace -/
theorem readFields?_fieldsChars : ∀ (k : Option String) (j : Json) (fs : List (Option String × Json)) (fuel : Nat)
    (rest : List Char), FieldsWellWritten ((k, j) :: fs) → (fieldsChars ((k, j) :: fs)).length ≤ fuel →
    readFields? fuel (fieldsChars ((k, j) :: fs) ++ rest) = some ((k, j) :: fs, rest)
  | k, j, fs, 0, rest, h, hfuel => by
    obtain ⟨cs, hcs⟩ := fieldsChars_eq_cons (k, j) fs
    simp [hcs] at hfuel
  | none, j, fs, fuel + 1, rest, h, hfuel => by cases h.1
  | some k, j, [], fuel + 1, rest, h, hfuel => by
    have hlength : (fieldsChars [(some k, j)]).length = (stringText (some k)).length + 1 + j.chars.length + 1 := by
      simp [fieldsChars]
      omega
    have hj := readValue?_chars j fuel ('}' :: rest) h.2.1 (by omega) (stopsAt_mark (by simp))
    rw [fieldsChars, List.append_assoc, List.append_assoc, List.cons_append, readFields?_name, List.singleton_append, hj]
    rfl
  | some k, j, (k', j') :: fs, fuel + 1, rest, h, hfuel => by
    have hlength : (fieldsChars ((some k, j) :: (k', j') :: fs)).length =
        (stringText (some k)).length + 1 + j.chars.length + 1 + (fieldsChars ((k', j') :: fs)).length := by
      rw [fieldsChars]
      · simp
        omega
      · simp
    have hj := readValue?_chars j fuel (',' :: (fieldsChars ((k', j') :: fs) ++ rest)) h.2.1 (by omega) (stopsAt_mark (by simp))
    have hfs := readFields?_fieldsChars k' j' fs fuel rest h.2.2 (by omega)
    rw [fieldsChars]
    · simp only [List.append_assoc, List.cons_append]
      rw [readFields?_name, hj]
      show ((readFields? fuel (fieldsChars ((k', j') :: fs) ++ rest)).bind _) = _
      rw [hfs]
      rfl
    · simp

end

/-- **A text** holds the value that was written, and no other. -/
theorem parseChars?_chars {j : Json} (h : j.WellWritten) : parseChars? j.chars = some j := by
  have hread := readValue?_chars j (2 * j.chars.length + 2) [] h (by omega) stopsAt_nil
  rw [List.append_nil] at hread
  rw [parseChars?, hread]
  rfl

/-! ## Lines -/

/-- the characters that do not end a line, or start something else that cannot be seen -/
def Visible (cs : List Char) : Prop := ∀ c ∈ cs, 0x20 ≤ c.toNat

instance (cs : List Char) : Decidable (Visible cs) := List.decidableBAll (fun c : Char => 0x20 ≤ c.toNat) cs

theorem visible_append {cs ds : List Char} : Visible (cs ++ ds) ↔ Visible cs ∧ Visible ds := List.forall_mem_append

theorem visible_cons {c : Char} {cs : List Char} : Visible (c :: cs) ↔ 0x20 ≤ c.toNat ∧ Visible cs := List.forall_mem_cons

theorem visible_nil : Visible [] := nofun

theorem visible_digits (h : ∀ c ∈ ds, c.isDigit) : Visible ds := fun c hc => by
  have : 48 ≤ c.toNat ∧ c.toNat ≤ 57 := by simpa [Char.isDigit, UInt32.le_iff_toNat_le] using h c hc
  omega

theorem visible_text (h : n.WellWritten) : Visible n.text := by
  simp only [Numeral.text, visible_append]
  refine ⟨⟨⟨?_, visible_digits h.whole⟩, ?_⟩, ?_⟩
  · split
    · exact visible_cons.2 ⟨by decide, visible_nil⟩
    · exact visible_nil
  · have hfraction := h.fraction
    cases hf : n.fraction with
    | nil => exact visible_nil
    | cons d ds =>
      rw [hf] at hfraction
      exact visible_cons.2 ⟨by decide, visible_digits hfraction⟩
  · cases he : n.exponent with
    | none => exact visible_nil
    | some e =>
      refine visible_cons.2 ⟨by decide, visible_cons.2 ⟨?_, visible_digits (h.exponent e he).2⟩⟩
      split <;> decide

/-- the digits of a control character can be seen -/
theorem visible_control : ∀ n < 0x20, Visible ['\\', 'u', '0', '0', Nat.digitChar (n / 16), Nat.digitChar (n % 16)] := by
  decide

theorem visible_escaped (c : Char) : Visible (escaped c) := by
  unfold escaped
  split_ifs with h1 h2 h3 h4 h5 h6 h7 hcontrol
  any_goals decide
  · exact visible_control c.toNat hcontrol
  · exact visible_cons.2 ⟨Nat.le_of_not_lt hcontrol, visible_nil⟩

theorem visible_stringText (s : Option String) : Visible (stringText s) := by
  refine visible_cons.2 ⟨by decide, visible_append.2 ⟨fun c hc => ?_, visible_cons.2 ⟨by decide, visible_nil⟩⟩⟩
  obtain ⟨d, -, hd⟩ := List.mem_flatMap.1 hc
  exact visible_escaped d c hd

mutual

/-- **A text is one line.** -/
theorem visible_chars : ∀ j : Json, j.WellWritten → Visible j.chars
  | .null, _ | .bool true, _ | .bool false, _ => by decide
  | .number n, h => visible_text h
  | .string s, _ => visible_stringText s
  | .array items, h => visible_cons.2 ⟨by decide, visible_itemsChars items h⟩
  | .object fields, h => visible_cons.2 ⟨by decide, visible_fieldsChars fields h⟩

theorem visible_itemsChars : ∀ items, AllWellWritten items → Visible (itemsChars items)
  | [], _ => by decide
  | [j], h => visible_append.2 ⟨visible_chars j h.1, by decide⟩
  | j :: i :: js, h =>
    visible_append.2 ⟨visible_chars j h.1, visible_cons.2 ⟨by decide, visible_itemsChars (i :: js) h.2⟩⟩

theorem visible_fieldsChars : ∀ fields, FieldsWellWritten fields → Visible (fieldsChars fields)
  | [], _ => by decide
  | [(k, j)], h => visible_append.2 ⟨visible_append.2 ⟨visible_stringText k,
      visible_cons.2 ⟨by decide, visible_chars j h.2.1⟩⟩, by decide⟩
  | (k, j) :: f :: fs, h => visible_append.2 ⟨visible_append.2 ⟨visible_stringText k,
      visible_cons.2 ⟨by decide, visible_chars j h.2.1⟩⟩, visible_cons.2 ⟨by decide, visible_fieldsChars (f :: fs) h.2.2⟩⟩

end

end Json

end ConceptGraph
