/-
Identifiers of concepts. Schema elements and instances draw their identifiers from one 64-bit counter, so a number
names at most one concept as long as the counter has not gone all the way round.

- `TypeId`, `ThingId`: a schema element, an instance; both print as `V` and the number.
- `IdSource.take`: hand out the next number. The counter wraps after 2^64 - 1.
-/
import Std.Data.ExtTreeMap
import Std.Data.ExtTreeSet

namespace ConceptGraph

open Std

/-- identifier of an entity type, relation type, attribute type or role -/
structure TypeId where
  raw : UInt64
  deriving DecidableEq, Repr

/-- identifier of an entity, relation or attribute -/
structure ThingId where
  raw : UInt64
  deriving DecidableEq, Repr

/-- how identifiers are written in messages -/
def idText (raw : UInt64) : String := "V" ++ toString raw.toNat

instance : ToString TypeId := ⟨fun t => idText t.raw⟩
instance : ToString ThingId := ⟨fun t => idText t.raw⟩

/-! ## Order -/

instance : Ord TypeId := ⟨compareOn TypeId.raw⟩
instance : TransOrd TypeId := inferInstanceAs (TransCmp (compareOn TypeId.raw))
instance : LawfulEqOrd TypeId where
  eq_of_compare {a b} h := by
    have : a.raw = b.raw := LawfulEqOrd.eq_of_compare (α := UInt64) h
    cases a; cases b; simp_all

instance : Ord ThingId := ⟨compareOn ThingId.raw⟩
instance : TransOrd ThingId := inferInstanceAs (TransCmp (compareOn ThingId.raw))
instance : LawfulEqOrd ThingId where
  eq_of_compare {a b} h := by
    have : a.raw = b.raw := LawfulEqOrd.eq_of_compare (α := UInt64) h
    cases a; cases b; simp_all

/-! ## Handing out identifiers -/

/-- the next identifier that has not been handed out -/
structure IdSource where
  next : UInt64
  deriving DecidableEq, Repr

namespace IdSource

/-- the next number, and the source after it -/
def take (ids : IdSource) : UInt64 × IdSource := (ids.next, ⟨ids.next + 1⟩)

/-- the next number as the identifier of a schema element -/
def takeType (ids : IdSource) : TypeId × IdSource := (⟨ids.take.1⟩, ids.take.2)

/-- the next number as the identifier of an instance -/
def takeThing (ids : IdSource) : ThingId × IdSource := (⟨ids.take.1⟩, ids.take.2)

end IdSource

end ConceptGraph
