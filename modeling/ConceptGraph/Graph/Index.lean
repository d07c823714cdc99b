/-
The three ways into a graph other than by identifier: the instances of a type, the attribute of a type that holds a
value, and the relations in which an instance plays.
-/
import ConceptGraph.Graph.Thing
import ConceptGraph.Multimap

namespace ConceptGraph

open Std

/-- instances by their direct type -/
abbrev TypeIndex := Multimap TypeId ThingId

/-- an attribute type, and the identity of a value -/
structure AttributeKey where
  type : TypeId
  value : ValueKey
  deriving DecidableEq, Repr

namespace AttributeKey

instance : Ord AttributeKey := ⟨compareLex (compareOn type) (compareOn value)⟩
instance : TransOrd AttributeKey := inferInstanceAs (TransCmp (compareLex (compareOn type) (compareOn value)))
instance : LawfulEqOrd AttributeKey where
  eq_of_compare {a b} h := by
    obtain ⟨ht, hv⟩ := compareLex_eq_eq.1 h
    have ht : a.type = b.type := LawfulEqOrd.eq_of_compare (α := TypeId) ht
    have hv : a.value = b.value := LawfulEqOrd.eq_of_compare (α := ValueKey) hv
    cases a; cases b; simp_all

end AttributeKey

/-- the one attribute of a type that holds a value -/
abbrev AttributeIndex := ExtTreeMap AttributeKey ThingId

namespace AttributeIndex

def find? (ix : AttributeIndex) (type : TypeId) (v : Value) : Option ThingId := ix[(⟨type, v.key⟩ : AttributeKey)]?

def remove (ix : AttributeIndex) (type : TypeId) (v : Value) : AttributeIndex := ix.erase ⟨type, v.key⟩

/-- the attribute that holds the value already, or else the index in which `id` does -/
def record (ix : AttributeIndex) (type : TypeId) (v : Value) (id : ThingId) : ThingId ⊕ AttributeIndex :=
  match ix.find? type v with
  | some existing => .inl existing
  | none => .inr (ExtTreeMap.insert ix ⟨type, v.key⟩ id)

end AttributeIndex

/-- a relation, and a role in it -/
structure Membership where
  relation : ThingId
  role : TypeId
  deriving DecidableEq, Repr

namespace Membership

instance : Ord Membership := ⟨compareLex (compareOn relation) (compareOn role)⟩
instance : TransOrd Membership := inferInstanceAs (TransCmp (compareLex (compareOn relation) (compareOn role)))
instance : LawfulEqOrd Membership where
  eq_of_compare {a b} h := by
    obtain ⟨hr, hp⟩ := compareLex_eq_eq.1 h
    have hr : a.relation = b.relation := LawfulEqOrd.eq_of_compare (α := ThingId) hr
    have hp : a.role = b.role := LawfulEqOrd.eq_of_compare (α := TypeId) hp
    cases a; cases b; simp_all

end Membership

/-- the relations and roles by their player -/
abbrev PlayerIndex := Multimap ThingId Membership

namespace PlayerIndex

def add (ix : PlayerIndex) (relation : ThingId) (p : RolePlayer) : PlayerIndex :=
  Multimap.insert ix p.player ⟨relation, p.role⟩

def drop (ix : PlayerIndex) (relation : ThingId) (p : RolePlayer) : PlayerIndex :=
  Multimap.remove ix p.player ⟨relation, p.role⟩

end PlayerIndex

end ConceptGraph
