/-
Dates with a time of day, in no time zone.

A `LocalTime` is a day of the Gregorian calendar (extended to all years from -262143 to 262142) and a time of day down
to nanoseconds; second 60 stands for a leap second and is kept as it is. It is written `2020-01-31T12:00:00`, with 3, 6
or 9 digits of a fraction where one is needed, and with a sign before a year outside 0 to 9999. Reading takes the same
form, any number of fraction digits (those past the ninth are dropped), months, days and times without a leading zero,
and white space between the parts.
-/
import ConceptGraph.Text.Blank
import ConceptGraph.Text.Digits

namespace ConceptGraph

open Text

namespace Calendar

def isLeapYear (year : Int) : Bool := year % 4 == 0 && (year % 100 != 0 || year % 400 == 0)

def daysInMonth (year : Int) (month : Nat) : Nat :=
  if month = 2 then (if isLeapYear year then 29 else 28)
  else if month = 4 ∨ month = 6 ∨ month = 9 ∨ month = 11 then 30
  else 31

/-- whether the parts name a day and a time of day -/
def isValid (year : Int) (month day hour minute second nano : Nat) : Bool :=
  -262143 ≤ year && year ≤ 262142 && 1 ≤ month && month ≤ 12 && 1 ≤ day && day ≤ daysInMonth year month
    && hour < 24 && minute < 60 && second ≤ 60 && nano < 1000000000

/-- the day after -/
def nextDay (year : Int) (month day : Nat) : Int × Nat × Nat :=
  if day < daysInMonth year month then (year, month, day + 1)
  else if month < 12 then (year, month + 1, 1)
  else (year + 1, 1, 1)

/-- the day before -/
def previousDay (year : Int) (month day : Nat) : Int × Nat × Nat :=
  if 1 < day then (year, month, day - 1)
  else if 1 < month then (year, month - 1, daysInMonth year (month - 1))
  else (year - 1, 12, 31)

end Calendar

/-- a day and a time of day, in no time zone -/
structure LocalTime where
  year : Int
  month : Nat
  day : Nat
  hour : Nat
  minute : Nat
  second : Nat
  nano : Nat
  valid : Calendar.isValid year month day hour minute second nano = true
  deriving DecidableEq, Repr

namespace LocalTime

def ofParts? (year : Int) (month day hour minute second nano : Nat) : Option LocalTime :=
  if h : Calendar.isValid year month day hour minute second nano = true then
    some ⟨year, month, day, hour, minute, second, nano, h⟩
  else none

/-- the parts, the weightiest first: time goes as the lexicographic order of these -/
def parts (t : LocalTime) : List Int := [t.year, t.month, t.day, t.hour, t.minute, t.second, t.nano]

theorem eq_of_parts_eq {a b : LocalTime} (h : a.parts = b.parts) : a = b := by
  cases a; cases b
  simp only [parts, List.cons.injEq, Int.natCast_inj, and_true] at h
  obtain ⟨rfl, rfl, rfl, rfl, rfl, rfl, rfl⟩ := h
  rfl

/-! ## Writing -/

def yearText (year : Int) : List Char :=
  if 0 ≤ year ∧ year ≤ 9999 then padded 4 year.natAbs
  else (if year < 0 then '-' else '+') :: padded 4 year.natAbs

/-- the fraction in the fewest of 0, 3, 6 and 9 digits that are exact -/
def fractionText (nano : Nat) : List Char :=
  if nano = 0 then []
  else if nano % 1000000 = 0 then '.' :: padded 3 (nano / 1000000)
  else if nano % 1000 = 0 then '.' :: padded 6 (nano / 1000)
  else '.' :: padded 9 nano

def text (t : LocalTime) : String :=
  String.ofList (yearText t.year ++ '-' :: padded 2 t.month ++ '-' :: padded 2 t.day ++ 'T' :: padded 2 t.hour
    ++ ':' :: padded 2 t.minute ++ ':' :: padded 2 t.second ++ fractionText t.nano)

instance : ToString LocalTime := ⟨text⟩

/-! ## Reading -/

/-- at least one digit, at most `limit` of them -/
def readDigits? (limit : Nat) (cs : List Char) : Option (List Char × List Char) :=
  let ds := (cs.take limit).takeWhile Char.isDigit
  if ds = [] then none else some (ds, cs.drop ds.length)

/-- a number of at most `limit` digits, after white space -/
def readNumber? (limit : Nat) (cs : List Char) : Option (Nat × List Char) :=
  (readDigits? limit (dropBlanks cs)).map fun r => (natOfDigits r.1, r.2)

/-- a year: four digits, or any number of them after a sign -/
def readYear? (cs : List Char) : Option (Int × List Char) :=
  match dropBlanks cs with
  | '-' :: cs => (readDigits? cs.length cs).map fun r => (-(natOfDigits r.1 : Int), r.2)
  | '+' :: cs => (readDigits? cs.length cs).map fun r => ((natOfDigits r.1 : Int), r.2)
  | cs => (readDigits? 4 cs).map fun r => ((natOfDigits r.1 : Int), r.2)

/-- the character `c`, after white space -/
def readMark? (c : Char) (cs : List Char) : Option (List Char) :=
  match dropBlanks cs with
  | d :: cs => if d = c then some cs else none
  | [] => none

/-- the nanoseconds after a point, if there is one -/
def readFraction? : List Char → Option (Nat × List Char)
  | '.' :: cs => (readDigits? 9 cs).map fun r =>
      (natOfDigits r.1 * Nat.pow 10 (9 - r.1.length), r.2.dropWhile Char.isDigit)
  | cs => some (0, cs)

/-- year, month and day -/
def readDate? (cs : List Char) : Option ((Int × Nat × Nat) × List Char) := do
  let (year, cs) ← readYear? cs
  let cs ← readMark? '-' cs
  let (month, cs) ← readNumber? 2 cs
  let cs ← readMark? '-' cs
  let (day, cs) ← readNumber? 2 cs
  pure ((year, month, day), cs)

/-- hour, minute, second and nanosecond -/
def readClock? (cs : List Char) : Option ((Nat × Nat × Nat × Nat) × List Char) := do
  let (hour, cs) ← readNumber? 2 cs
  let cs ← readMark? ':' cs
  let (minute, cs) ← readNumber? 2 cs
  let cs ← readMark? ':' cs
  let (second, cs) ← readNumber? 2 cs
  let (nano, cs) ← readFraction? cs
  pure ((hour, minute, second, nano), dropBlanks cs)

def ofText? (text : String) : Option LocalTime := do
  let ((year, month, day), cs) ← readDate? text.toList
  let cs ← readMark? 'T' cs
  let ((hour, minute, second, nano), cs) ← readClock? cs
  if cs = [] then ofParts? year month day hour minute second nano else none

/-! ## Moving the clock -/

/-- the time `minutes` later or, if negative, earlier, for less than a day -/
def addMinutes? (t : LocalTime) (minutes : Int) : Option LocalTime :=
  let total : Int := t.hour * 60 + t.minute + minutes
  let (year, month, day) :=
    if total < 0 then Calendar.previousDay t.year t.month t.day
    else if total < 1440 then (t.year, t.month, t.day)
    else Calendar.nextDay t.year t.month t.day
  let ofDay := (total % 1440).toNat
  ofParts? year month day (ofDay / 60) (ofDay % 60) t.second t.nano

end LocalTime

end ConceptGraph
