/-
What a call comes to that counts something. It is answered or refused, as any other call; or the count goes past the
largest number that there is. Then the call breaks off where it is, without an answer, and what it has done until then
stays done.
-/

namespace ConceptGraph

inductive Outcome (ε α : Type) where
  | ok (a : α)
  | error (e : ε)
  | brokenOff
  deriving DecidableEq, Repr

/-- what is said to the call, unless it breaks off -/
def Outcome.answer? {ε α : Type} : Outcome ε α → Option (Except ε α)
  | .ok a => some (.ok a)
  | .error e => some (.error e)
  | .brokenOff => none

end ConceptGraph
