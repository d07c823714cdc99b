/-
Entries of a journal. A committed transaction leaves one entry when it begins, one for each of its mutations and one
when it is committed; each entry gets the next log sequence number.

As data, an entry is an object whose field `entry` names it, and a record is an object of number and entry.
-/
import ConceptGraph.Mutation
import ConceptGraph.Time.UtcTime

namespace ConceptGraph

/-- number of a transaction -/
abbrev TxnId := UInt64

/-- log sequence number -/
abbrev Lsn := UInt64

inductive JournalEntry where
  | begun (txn : TxnId)
  | applied (txn : TxnId) (m : Mutation)
  | committed (txn : TxnId) (time : UtcTime)
  deriving DecidableEq, Repr

structure JournalRecord where
  lsn : Lsn
  entry : JournalEntry
  deriving DecidableEq, Repr

namespace JournalEntry

/-- the transaction it belongs to -/
def txn : JournalEntry → TxnId
  | begun txn | applied txn _ | committed txn _ => txn

def isCommit : JournalEntry → Bool
  | committed .. => true
  | _ => false

/-! ## Data -/

def names : List String := ["begin", "apply", "commit"]

def toJson : JournalEntry → Json
  | begun txn => .record [("entry", .ofString "begin"), ("txn_id", .ofNat txn.toNat)]
  | applied txn m => .record [("entry", .ofString "apply"), ("txn_id", .ofNat txn.toNat), ("mutation", m.toJson)]
  | committed txn time =>
    .record [("entry", .ofString "commit"), ("txn_id", .ofNat txn.toNat), ("committed_at", .ofString time.text)]

/-- the entry of that name, from its other fields -/
def ofFields? (name : String) (body : Json) : Option JournalEntry := do
  match name with
  | "begin" =>
    match ← body.fields? ["txn_id"] with
    | [txn] => pure (.begun (← txn.uint64?))
    | _ => none
  | "apply" =>
    match ← body.fields? ["txn_id", "mutation"] with
    | [txn, m] => pure (.applied (← txn.uint64?) (← Mutation.ofJson? true m))
    | _ => none
  | "commit" =>
    match ← body.fields? ["txn_id", "committed_at"] with
    | [txn, time] => pure (.committed (← txn.uint64?) (← UtcTime.ofText? (← time.string?)))
    | _ => none
  | _ => none

/-- an entry in data, below `outer` levels of nesting -/
def ofJson? (outer : Nat) (j : Json) : Option JournalEntry := do
  if !j.isKeepable outer then none
  else
    let (tag, body) ← j.tagged? "entry"
    ofFields? (← tag.caseTag? false names) body

end JournalEntry

namespace JournalRecord

def toJson (r : JournalRecord) : Json := .record [("lsn", .ofNat r.lsn.toNat), ("entry", r.entry.toJson)]

def ofJson? (j : Json) : Option JournalRecord := do
  match ← j.fields? ["lsn", "entry"] with
  | [lsn, entry] => pure ⟨← lsn.uint64?, ← JournalEntry.ofJson? 1 entry⟩
  | _ => none

end JournalRecord

end ConceptGraph
