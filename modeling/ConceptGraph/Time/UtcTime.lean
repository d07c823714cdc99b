/-
Moments in universal time. They are written as a `LocalTime` with a final `Z`; reading takes any offset from universal
time of less than a day, `UTC` or `Z` in either case, and a small `t` or a space where `LocalTime` has a `T`.
-/
import ConceptGraph.Time.LocalTime

namespace ConceptGraph

open Text

/-- a moment, as the date and time of day in universal time -/
structure UtcTime where
  clock : LocalTime
  deriving DecidableEq, Repr

namespace UtcTime

open LocalTime

def text (t : UtcTime) : String := t.clock.text ++ "Z"

instance : ToString UtcTime := ⟨text⟩

/-- two digits, the first one at most `top` -/
def readPair? (top : Nat) : List Char → Option (Nat × List Char)
  | a :: b :: cs =>
    if a.isDigit && b.isDigit && natOfDigits [a] ≤ top then some (natOfDigits [a, b], cs) else none
  | _ => none

/-- hours and minutes after a sign, as minutes ahead of universal time -/
def readOffset? (cs : List Char) : Option (Int × List Char) :=
  match cs with
  | 'Z' :: cs => some (0, cs)
  | 'z' :: cs => some (0, cs)
  | sign :: cs => do
    if sign ≠ '+' ∧ sign ≠ '-' ∧ sign ≠ '−' then none
    else
      let (hours, cs) ← readPair? 9 cs
      let (minutes, cs) ← readPair? 5 (cs.dropWhile fun c => c == ':' || isBlank c)
      let ahead : Int := hours * 60 + minutes
      if ahead < 1440 then pure (if sign = '+' then ahead else -ahead, cs) else none
  | [] => none

/-- the zone after a time of day, as minutes ahead of universal time -/
def readZone? (cs : List Char) : Option (Int × List Char) :=
  if (cs.take 3).map Char.toUpper = ['U', 'T', 'C'] then some (0, cs.drop 3) else readOffset? cs

def ofText? (text : String) : Option UtcTime := do
  let ((year, month, day), cs) ← readDate? text.toList
  match cs with
  | [] => none
  | sep :: cs =>
    if sep ≠ 't' ∧ sep ≠ 'T' ∧ sep ≠ ' ' then none
    else
      let ((hour, minute, second, nano), cs) ← readClock? cs
      let (ahead, cs) ← readZone? cs
      if dropBlanks cs ≠ [] then none
      else
        let there ← LocalTime.ofParts? year month day hour minute second nano
        (there.addMinutes? (-ahead)).map UtcTime.mk

end UtcTime

end ConceptGraph
