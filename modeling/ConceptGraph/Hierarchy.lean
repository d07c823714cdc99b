/-
Forests: each node has at most one parent, and the children of a node keep the order in which they came.

A node records its parent and its children, and every edit changes both sides of an edge. Walks are bounded by the
number of nodes, which no walk in a forest exceeds.

- `supertypes`: a node and its ancestors, nearest first.
- `subtypes`: a node and its descendants, generation by generation, siblings in order.
- `reparent`: moves a node with everything below it. A root stays a root, and no node gets below itself.
-/
import Std.Data.ExtTreeMap

namespace ConceptGraph

open Std

/-- the two ends of the edges of a node -/
structure Node (κ : Type) where
  parent : Option κ
  children : List κ
  deriving DecidableEq, Repr

/-- a forest over the nodes `κ` -/
structure Hierarchy (κ : Type) [Ord κ] where
  nodes : ExtTreeMap κ (Node κ)

/-- why an edit is refused -/
inductive HierarchyError (κ : Type) where
  | unknownNode (node : κ)
  | duplicateNode (node : κ)
  | cycle (node parent : κ)
  | hasChildren (node : κ)
  | root (node : κ)
  deriving DecidableEq, Repr

/-- `name` says how a node is written -/
def HierarchyError.message {κ : Type} (name : κ → String) : HierarchyError κ → String
  | .unknownNode n => "Node not in hierarchy: " ++ name n
  | .duplicateNode n => "Node already in hierarchy: " ++ name n
  | .cycle n p => "Making " ++ name p ++ " the parent of " ++ name n ++ " would create a cycle"
  | .hasChildren n => "Node " ++ name n ++ " still has children"
  | .root n => "Node " ++ name n ++ " is a root and cannot be reparented"

namespace Hierarchy

variable {κ : Type} [Ord κ] [TransOrd κ] [LawfulEqOrd κ] [DecidableEq κ]

instance : DecidableEq (Hierarchy κ) := fun a b =>
  if h : a.nodes = b.nodes then isTrue (by cases a; cases b; simp_all)
  else isFalse fun e => h (congrArg Hierarchy.nodes e)

def empty : Hierarchy κ := ⟨∅⟩

/-- one root and its children -/
def star (root : κ) (children : List κ) : Hierarchy κ :=
  let nodes : List (κ × Node κ) := (root, ⟨none, children⟩) :: children.map fun n => (n, ⟨some root, []⟩)
  ⟨.ofList nodes⟩

/-! ## Queries -/

def contains (h : Hierarchy κ) (n : κ) : Bool := h.nodes.contains n

def size (h : Hierarchy κ) : Nat := h.nodes.size

def parent? (h : Hierarchy κ) (n : κ) : Option κ := h.nodes[n]?.bind Node.parent

def children (h : Hierarchy κ) (n : κ) : List κ := (h.nodes[n]?.map Node.children).getD []

/-- in the forest, and without a parent -/
def isRoot (h : Hierarchy κ) (n : κ) : Bool := h.nodes[n]?.any (·.parent.isNone)

/-- `n` and at most `fuel - 1` ancestors, nearest first -/
def chain (h : Hierarchy κ) : Nat → κ → List κ
  | 0, _ => []
  | fuel + 1, n => n :: (h.parent? n).elim [] (chain h fuel)

/-- the node and its ancestors, nearest first; nothing if it is not in the forest -/
def supertypes (h : Hierarchy κ) (n : κ) : List κ := if h.contains n then h.chain h.size n else []

/-- `level`, its children, their children and so on, at most `fuel` levels -/
def generations (h : Hierarchy κ) : Nat → List κ → List κ
  | 0, _ => []
  | fuel + 1, level => if level.isEmpty then [] else level ++ generations h fuel (level.flatMap h.children)

/-- the node and its descendants, nearest first; nothing if it is not in the forest -/
def subtypes (h : Hierarchy κ) (n : κ) : List κ := if h.contains n then h.generations h.size [n] else []

/-- whether `n` is `ancestor` or below it -/
def isSubtypeOf (h : Hierarchy κ) (n ancestor : κ) : Bool := (h.supertypes n).contains ancestor

/-- number of proper ancestors -/
def depth (h : Hierarchy κ) (n : κ) : Nat := (h.supertypes n).length - 1

/-! ## Edits -/

/-- the forest with the children of one node changed -/
def changeChildren (h : Hierarchy κ) (n : κ) (f : List κ → List κ) : Hierarchy κ :=
  ⟨h.nodes.modify n fun d => { d with children := f d.children }⟩

/-- the forest with `n` taken from the children of its parent -/
def detach (h : Hierarchy κ) (n : κ) : Hierarchy κ :=
  match h.parent? n with
  | some p => h.changeChildren p fun cs => cs.filter (· != n)
  | none => h

/-- the forest with `n` as last child of `p` -/
def attach (h : Hierarchy κ) (n p : κ) : Hierarchy κ := h.changeChildren p (· ++ [n])

def insertRoot (h : Hierarchy κ) (n : κ) : Except (HierarchyError κ) (Hierarchy κ) :=
  if h.contains n then .error (.duplicateNode n) else .ok ⟨h.nodes.insert n ⟨none, []⟩⟩

def insert (h : Hierarchy κ) (n p : κ) : Except (HierarchyError κ) (Hierarchy κ) :=
  if h.contains n then .error (.duplicateNode n)
  else if !h.contains p then .error (.unknownNode p)
  else .ok ⟨(h.attach n p).nodes.insert n ⟨some p, []⟩⟩

/-- why `n` cannot become a child of `p`, if it cannot -/
def reparentFault (h : Hierarchy κ) (n p : κ) : Option (HierarchyError κ) :=
  if !h.contains n then some (.unknownNode n)
  else if !h.contains p then some (.unknownNode p)
  else if h.isRoot n then some (.root n)
  else if h.isSubtypeOf p n then some (.cycle n p)
  else none

/-- the parent of `n` before, and the forest with `n` as last child of `p`, unless it is a child of `p` already -/
def reparent (h : Hierarchy κ) (n p : κ) : Except (HierarchyError κ) (Option κ × Hierarchy κ) :=
  match h.reparentFault n p with
  | some fault => .error fault
  | none =>
    let old := h.parent? n
    if old = some p then .ok (old, h)
    else
      let moved := (h.detach n).attach n p
      .ok (old, ⟨moved.nodes.modify n fun d => { d with parent := some p }⟩)

/-- the forest without `n`, which must have no children -/
def remove (h : Hierarchy κ) (n : κ) : Except (HierarchyError κ) (Hierarchy κ) :=
  if !h.contains n then .error (.unknownNode n)
  else if !(h.children n).isEmpty then .error (.hasChildren n)
  else .ok ⟨(h.detach n).nodes.erase n⟩

end Hierarchy

end ConceptGraph
