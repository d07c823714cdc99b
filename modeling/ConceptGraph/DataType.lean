/-
The seven domains an attribute value can belong to. Two domains are the same only if they have the same name: a
`long` attribute type takes no `integer` value.
-/
namespace ConceptGraph

/-- a domain of attribute values -/
inductive DataType where
  | boolean
  | date
  | double
  | float
  | integer
  | long
  | string
  deriving DecidableEq, Repr

namespace DataType

/-- every domain, in the order in which they are listed to users -/
def all : List DataType := [boolean, date, double, float, integer, long, string]

def name : DataType → String
  | boolean => "boolean"
  | date => "date"
  | double => "double"
  | float => "float"
  | integer => "integer"
  | long => "long"
  | string => "string"

instance : ToString DataType := ⟨name⟩

/-- the domain of that exact name -/
def ofName? (text : String) : Option DataType := all.find? fun d => d.name == text

/-- only strings can be constrained by a regex -/
def isString (d : DataType) : Bool := d == string

end DataType

end ConceptGraph
