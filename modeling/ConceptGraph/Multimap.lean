/-
Maps from keys to sets. A key whose set has become empty is dropped, so `contains` tells whether it has any element.
-/
import Std.Data.ExtTreeMap
import Std.Data.ExtTreeSet

namespace ConceptGraph

open Std

/-- a set of elements for each key -/
structure Multimap (κ α : Type) [Ord κ] [Ord α] where
  sets : ExtTreeMap κ (ExtTreeSet α)

namespace Multimap

variable {κ α : Type} [Ord κ] [TransOrd κ] [LawfulEqOrd κ] [Ord α] [TransOrd α] [LawfulEqOrd α]

def empty : Multimap κ α := ⟨∅⟩

/-- the elements of a key -/
def get (m : Multimap κ α) (k : κ) : ExtTreeSet α := m.sets[k]?.getD ∅

def insert (m : Multimap κ α) (k : κ) (a : α) : Multimap κ α := ⟨m.sets.insert k ((m.get k).insert a)⟩

def remove (m : Multimap κ α) (k : κ) (a : α) : Multimap κ α :=
  let rest := (m.get k).erase a
  ⟨if rest.isEmpty then m.sets.erase k else m.sets.insert k rest⟩

/-- whether the key has any element -/
def contains (m : Multimap κ α) (k : κ) : Bool := m.sets.contains k

/-- the elements of a key, in order -/
def toList (m : Multimap κ α) (k : κ) : List α := (m.get k).toList

def count (m : Multimap κ α) (k : κ) : Nat := (m.get k).size

end Multimap

end ConceptGraph
