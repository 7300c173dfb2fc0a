import PetriCode.Xml.Name

/-! Documents as trees. An element has a name in a namespace or in none, attributes in the order in
which they were written, and children; adjacent character data are one child. -/
namespace PetriCode.Xml

structure ExpandedName where
  namespaceUri : Option String
  localName : String
deriving DecidableEq, Repr

structure Attribute where
  name : ExpandedName
  value : String
deriving DecidableEq, Repr

inductive Node
  | element (name : ExpandedName) (attributes : List Attribute) (children : List Node)
  | text (content : String)
  | comment (content : String)
  | instruction (target content : String)
deriving Repr

namespace Node

/-- Whether a node is an element with a local name, whatever its namespace. -/
def isNamed (localName : String) : Node → Bool
  | element name _ _ => name.localName == localName
  | _ => false

def children : Node → List Node
  | element _ _ children => children
  | _ => []

def attribute? (localName : String) : Node → Option String
  | element _ attributes _ =>
    (attributes.find? fun found => found.name.localName == localName).map (·.value)
  | _ => none

def child? (localName : String) (node : Node) : Option Node :=
  node.children.find? (isNamed localName)

/-- The text that stands before every other child. -/
def leadingText? (node : Node) : Option String :=
  match node.children with
  | text content :: _ => some content
  | _ => none

mutual
/-- The element itself and the elements below it, in document order. -/
def elements : Node → List Node
  | element name attributes children =>
    element name attributes children :: elementsOf children
  | _ => []

def elementsOf : List Node → List Node
  | [] => []
  | node :: rest => elements node ++ elementsOf rest
end

end Node
end PetriCode.Xml
