/-
Keys. Each instance of a type that declares a key holds exactly one attribute of it, and no two instances hold the same
value. Inside a transaction this may be broken for a while; `commitViolations` lists what is broken at its end, and
`checkKey` tells beforehand whether a declaration would break it. The one walks through all instances and collects what
it finds, the other one stops at the first of them that stands in the way.
-/
import ConceptGraph.Rules.Guard

namespace ConceptGraph

open Std

/-- what breaks a key -/
inductive KeyProblem where
  /-- an instance that holds another number of attributes than one -/
  | count (owner : ThingId) (number : Nat)
  /-- two instances that hold the same value, and the attribute that the second one holds -/
  | shared (other owner held : ThingId)
  deriving DecidableEq, Repr

namespace KeyProblem

/-- the instance at which the problem is found -/
def owner : KeyProblem → ThingId
  | .count owner _ => owner
  | .shared _ owner _ => owner

end KeyProblem

namespace State

/-- the problems of the instances; `seen` says who held a value last -/
def keyProblemsFrom (s : State) (t : TypeId) : ExtTreeMap ValueKey ThingId → List ThingId → List KeyProblem
  | _, [] => []
  | seen, owner :: owners =>
    match s.heldUnder owner t with
    | [held] =>
      match s.valueKey? held with
      | none => keyProblemsFrom s t seen owners
      | some value =>
        let rest := keyProblemsFrom s t (seen.insert value owner) owners
        match seen[value]? with
        | some other => .shared other owner held :: rest
        | none => rest
    | others => .count owner others.length :: keyProblemsFrom s t seen owners

/-- what breaks the key that the attribute type `owned` is, or would be, of `t` -/
def keyProblems (s : State) (t owned : TypeId) : List KeyProblem :=
  s.keyProblemsFrom owned ∅ ((s.instances t).map (·.1))

/-- the first problem of the instances, if there is one; `seen` says who holds a value -/
def firstKeyProblemFrom (s : State) (t : TypeId) : ExtTreeMap ValueKey ThingId → List ThingId → Option KeyProblem
  | _, [] => none
  | seen, owner :: owners =>
    match s.heldUnder owner t with
    | [held] =>
      match s.valueKey? held with
      | none => firstKeyProblemFrom s t seen owners
      | some value =>
        match seen[value]? with
        | some other => some (.shared other owner held)
        | none => firstKeyProblemFrom s t (seen.insert value owner) owners
    | others => some (.count owner others.length)

/-- whether the attribute type can be made a key -/
def checkKey (s : State) (t owned : TypeId) : Except ConceptError Unit := do
  let d ← s.editableThingType t
  let a ← s.editable owned .attribute
  if d.owns[owned]?.any Ownership.isKey then pure ()
  else match s.firstKeyProblemFrom owned ∅ ((s.instances t).map (·.1)) with
    | none => pure ()
    | some p =>
      let message := match p with
        | .count owner number => toString owner ++ " holds " ++ toString number ++ " " ++ a.label
            ++ " values, a key needs exactly one"
        | .shared other owner held =>
          toString other ++ " and " ++ toString owner ++ " share the " ++ a.label ++ " " ++ toString held
      throw (.violationBy .keyViolation message t p.owner)

/-- what breaks one declared key, as it is told at the end of a transaction -/
def keyViolations (s : State) (t : TypeId) (d : TypeDef) (owned : TypeId) : List Violation :=
  let label := s.schema.labelOf owned
  (s.keyProblems t owned).map fun p =>
    let message := match p with
      | .count owner number => toString owner ++ " holds " ++ toString number ++ " " ++ label
          ++ " values, the key of " ++ d.label ++ " needs exactly one"
      | .shared other owner held =>
        toString other ++ " and " ++ toString owner ++ " share the " ++ label ++ " key " ++ toString held
    ⟨.keyViolation, message, some t, some p.owner⟩

/-- everything that breaks a declared key, by declaring types and keys in order -/
def commitViolations (s : State) : List Violation :=
  s.schema.defs.toList.flatMap fun (t, d) =>
    (d.owns.toList.filter (·.2.isKey)).flatMap fun o => s.keyViolations t d o.1

end State

end ConceptGraph
