/-
Regular expressions, and what they match. An expression takes a text from one position to another; `ends` follows all
ways at once: it maps a set of start positions to the set of positions where a match from one of them can end.

Sets of positions are the bits of a number. Repeating goes on for as many rounds as asked, and stops early once a round
changes nothing; without an upper bound as many rounds do as the text has positions, since each adds one.
-/
import ConceptGraph.Regex.CharSet

namespace ConceptGraph.Regex

/-- conditions on a position, which consume nothing -/
inductive Look where
  | start
  | finish
  | lineStart
  | lineEnd
  | crlfLineStart
  | crlfLineEnd
  | word
  | notWord
  | wordStart
  | wordEnd
  | wordStartHalf
  | wordEndHalf
  deriving DecidableEq, Repr

/-- regular expressions -/
inductive Expr where
  | empty
  | char (c : Char)
  | set (s : CharSet)
  | look (l : Look)
  | seq (a b : Expr)
  | alt (a b : Expr)
  | repeated (e : Expr) (min : Nat) (max : Option Nat)
  deriving DecidableEq, Repr

/-- whether the condition holds at position `i` -/
def Look.holds (text : Array Char) (i : Nat) : Look → Bool
  | .start => i == 0
  | .finish => i == text.size
  | .lineStart => i == 0 || before == some '\n'
  | .lineEnd => i == text.size || after == some '\n'
  | .crlfLineStart => i == 0 || before == some '\n' || (before == some '\r' && after != some '\n')
  | .crlfLineEnd => i == text.size || after == some '\r' || (after == some '\n' && before != some '\r')
  | .word => wordBefore != wordAfter
  | .notWord => wordBefore == wordAfter
  | .wordStart => !wordBefore && wordAfter
  | .wordEnd => wordBefore && !wordAfter
  | .wordStartHalf => !wordBefore
  | .wordEndHalf => !wordAfter
where
  before : Option Char := if i = 0 then none else text[i - 1]?
  after : Option Char := text[i]?
  wordBefore : Bool := before.any isWordChar
  wordAfter : Bool := after.any isWordChar

/-! ## Sets of positions -/

/-- the positions below `n` with the property -/
def positions (p : Nat → Bool) : Nat → Nat
  | 0 => 0
  | n + 1 => if p n then positions p n ||| 1 <<< n else positions p n

/-- one character further from the positions that have one with the property -/
def consume (text : Array Char) (p : Char → Bool) (w : Nat) : Nat :=
  (w &&& positions (fun i => text[i]?.any p) text.size) <<< 1

/-- exactly `k` rounds -/
def rounds (f : Nat → Nat) : Nat → Nat → Nat
  | 0, w => w
  | k + 1, w =>
    let v := f w
    if v = w then w else rounds f k v

/-- at most `k` rounds -/
def spread (f : Nat → Nat) : Nat → Nat → Nat
  | 0, w => w
  | k + 1, w =>
    let v := w ||| f w
    if v = w then w else spread f k v

/-- where matches from the positions of `w` can end -/
def Expr.ends (text : Array Char) : Expr → Nat → Nat
  | .empty, w => w
  | .char c, w => consume text (· == c) w
  | .set s, w => consume text s.contains w
  | .look l, w => w &&& positions (fun i => l.holds text i) (text.size + 1)
  | .seq a b, w => b.ends text (a.ends text w)
  | .alt a b, w => a.ends text w ||| b.ends text w
  | .repeated e min max, w =>
    let further := match max with
      | some m => m - min
      | none => text.size + 1
    spread (e.ends text) further (rounds (e.ends text) min w)

/-- whether some part of the text is a match -/
def Expr.occursIn (e : Expr) (text : String) : Bool :=
  let cs := text.toList.toArray
  e.ends cs (1 <<< (cs.size + 1) - 1) != 0

end ConceptGraph.Regex
