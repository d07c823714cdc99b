/-
Regex constraints on strings. A pattern is to match a value as a whole, so it is searched for as a group between anchors.
The text has to be a regular expression by itself as well, or a stray parenthesis could close that group.
-/
import ConceptGraph.Regex.Parser
import ConceptGraph.ConceptError

namespace ConceptGraph

open Regex

/-- a regex constraint: its text, and the expression between anchors -/
structure Pattern where
  source : String
  expr : Expr
  deriving Repr

namespace Pattern

/-- the text in a group between anchors -/
def anchored (source : String) : List Char := '^' :: '(' :: '?' :: ':' :: source.toList ++ [')', '$']

/-- the expression between anchors, for a text that can be a pattern -/
def read (source : String) : Except Fault Expr := do
  let _ ← parse source.toList
  parse (anchored source)

/-- the pattern with that text -/
def compile (source : String) : Except ConceptError Pattern :=
  match read source with
  | .ok e => .ok ⟨source, e⟩
  | .error fault => .error (.invalidPattern source fault.message)

/-- whether the value has a match between the anchors -/
def isMatch (p : Pattern) (value : String) : Bool := p.expr.occursIn value

instance : BEq Pattern := ⟨fun a b => a.source == b.source⟩
instance : ToString Pattern := ⟨fun p => "/" ++ p.source ++ "/"⟩

end Pattern

end ConceptGraph
