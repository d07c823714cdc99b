/-
The journal of committed transactions, in memory. It takes each transaction as a whole, unless it has been told to
refuse the next one. As text it has one record to a line.

A journal always has the number of the next record at hand, so the last number that there is goes to no record: to write
a record under it, or to load one that has it, breaks off.
-/
import ConceptGraph.ConceptError
import ConceptGraph.Journal.Record
import ConceptGraph.Json.Reader
import ConceptGraph.Outcome
import ConceptGraph.Text.Blank

namespace ConceptGraph

/-- records in order, and the number of the next one -/
structure Journal where
  records : List JournalRecord
  next : Lsn
  rejectNext : Bool
  deriving DecidableEq, Repr

/-- why a journal does not take a transaction or a text -/
inductive JournalError where
  | rejected (detail : String)
  | malformed
  deriving DecidableEq, Repr

namespace JournalError

def message : JournalError → String
  | rejected detail => "commit rejected: " ++ detail
  | malformed => "serialization error: "

def toConceptError (e : JournalError) : ConceptError := .persistence e.message

end JournalError

namespace Journal

def empty : Journal := ⟨[], 1, false⟩

/-! ## Writing -/

/-- the last number that there is -/
def lastNumber : Lsn := 18446744073709551615

/-- the number of a new record with the entry, unless there is no number after it -/
def append (j : Journal) (e : JournalEntry) : Option Lsn × Journal :=
  if j.next = lastNumber then (none, j)
  else (some j.next, { j with records := j.records ++ [⟨j.next, e⟩], next := j.next + 1 })

/-- appends one entry after the other; those that come before the one where it breaks off stay -/
def appendAll (j : Journal) : List JournalEntry → Outcome JournalError Unit × Journal
  | [] => (.ok (), j)
  | e :: es =>
    match j.append e with
    | (some _, j) => j.appendAll es
    | (none, j) => (.brokenOff, j)

def rejectNextCommit (j : Journal) : Journal := { j with rejectNext := true }

/-- the entries that a transaction leaves -/
def entriesOf (txn : TxnId) (mutations : List Mutation) (now : UtcTime) : List JournalEntry :=
  .begun txn :: mutations.map (.applied txn) ++ [.committed txn now]

/-- takes a transaction, or refuses it once if it has been told to -/
def commit (j : Journal) (txn : TxnId) (mutations : List Mutation) (now : UtcTime) :
    Outcome JournalError Unit × Journal :=
  if j.rejectNext then
    (.error (.rejected ("transaction " ++ toString txn.toNat ++ " refused")), { j with rejectNext := false })
  else j.appendAll (entriesOf txn mutations now)

/-! ## Reading -/

def size (j : Journal) : Nat := j.records.length

/-- the transactions that are committed, in order -/
def committed (j : Journal) : List TxnId := (j.records.filter (·.entry.isCommit)).map (·.entry.txn)

/-- the mutations of a transaction, in order -/
def mutationsOf (j : Journal) (txn : TxnId) : List Mutation :=
  j.records.filterMap fun r =>
    match r.entry with
    | .applied t m => if t = txn then some m else none
    | _ => none

/-! ## Text -/

/-- one record to a line, each line ended -/
def text (j : Journal) : String := String.ofList (j.records.flatMap fun r => r.toJson.chars ++ ['\n'])

/-- the characters up to the next line feed, the rest of the line, and so on -/
def splitLines : List Char → List (List Char)
  | [] => [[]]
  | '\n' :: cs => [] :: splitLines cs
  | c :: cs =>
    match splitLines cs with
    | line :: lines => (c :: line) :: lines
    | [] => [[c]]

/-- the line without a carriage return at its end -/
def dropReturn (line : List Char) : List Char := if line.getLast? = some '\r' then line.dropLast else line

/-- the lines of a text that are not blank -/
def linesOf (cs : List Char) : List (List Char) := ((splitLines cs).map dropReturn).filter fun l => !l.all Text.isBlank

/-- the journal with one more record, under its own number, unless there is no number after it -/
def load (j : Journal) (r : JournalRecord) : Option Journal :=
  if r.lsn = lastNumber then none
  else some { j with records := j.records ++ [r], next := if j.next < r.lsn + 1 then r.lsn + 1 else j.next }

/-- the record that a line holds -/
def recordOf? (line : List Char) : Option JournalRecord := (Json.parseChars? line).bind JournalRecord.ofJson?

/-- the journal with the records of the lines, up to the first line that holds none or one that cannot be loaded -/
def loadLines (j : Journal) : List (List Char) → Outcome JournalError Journal
  | [] => .ok j
  | line :: lines =>
    match recordOf? line with
    | none => .error .malformed
    | some r =>
      match j.load r with
      | none => .brokenOff
      | some j => j.loadLines lines

/-- the journal that a text holds -/
def ofText? (input : String) : Outcome JournalError Journal := empty.loadLines (linesOf input.toList)

end Journal

end ConceptGraph
