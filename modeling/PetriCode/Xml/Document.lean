import PetriCode.Xml.Node
import PetriCode.Xml.Token

/-! From tokens to trees. A document has one element that holds all others; every tag is closed by
one of the same name; outside that element stand only white space, comments and instructions. The
qualifiers of names stand for the namespaces declared on the element or around it. -/
namespace PetriCode.Xml

def namespaceName (host path : String) : String := "http://" ++ host ++ "/" ++ path

def xmlUri : String := namespaceName "www.w3.org" "XML/1998/namespace"

def xmlnsUri : String := namespaceName "www.w3.org" "2000/xmlns/"

/-- Qualifiers with the namespaces that they stand for, the innermost first. The empty qualifier
stands for the namespace of elements without one. -/
abbrev Scope := List (String × String)

/-- The qualifier that an attribute declares, if it declares one: the empty one if its local name is
xmlns, whatever its own qualifier. -/
def WrittenAttribute.declared? (found : WrittenAttribute) : Option String :=
  if found.name.qualifier = "xmlns" then some found.name.localName
  else if found.name.localName = "xmlns" then some ""
  else none

/-- Whether a namespace may be declared for a qualifier: two namespaces are reserved, one of them
for the qualifier xml, which may be declared for no other. -/
def mayDeclare (qualifier uri : String) : Bool :=
  uri != xmlnsUri && (qualifier == "xml") == (uri == xmlUri)

/-- Adds a declaration to those of the same element. To declare xml says nothing new; of several
namespaces of elements without a qualifier the first counts; any other qualifier is declared once.
-/
def Scope.declare? (scope : Scope) (qualifier uri : String) : Option Scope :=
  if !mayDeclare qualifier uri then none
  else if qualifier = "xml" then some scope
  else if (scope.lookup qualifier).isNone then some ((qualifier, uri) :: scope)
  else if qualifier = "" then some scope
  else none

def declarations? (attributes : List WrittenAttribute) : Option Scope :=
  attributes.foldlM (fun scope found =>
    match found.declared? with
    | none => some scope
    | some qualifier => scope.declare? qualifier found.value) []

/-- A name in the namespace that its qualifier stands for, or in the given one if it has none. -/
def Scope.expand? (scope : Scope) (unqualified : Option String) (name : QualifiedName) :
    Option ExpandedName :=
  if name.qualifier = "" then some ⟨unqualified, name.localName⟩
  else (scope.lookup name.qualifier).map fun uri => ⟨some uri, name.localName⟩

/-- The name of an element. The qualifier of declarations is none of an element's. -/
def Scope.elementName? (scope : Scope) (written : QualifiedName) : Option ExpandedName :=
  if written.qualifier = "xmlns" then none else scope.expand? (scope.lookup "") written

/-- The name of an attribute: in no namespace without a qualifier, and xml needs no declaration. -/
def Scope.attributeName? (scope : Scope) (written : QualifiedName) : Option ExpandedName :=
  Scope.expand? (("xml", xmlUri) :: scope) none written

def Scope.attributes? (scope : Scope) (written : List WrittenAttribute) :
    Option (List Attribute) := do
  let found ← (written.filter fun one => one.declared?.isNone).mapM fun one => do
    return Attribute.mk (← scope.attributeName? one.name) one.value
  if (found.map (·.name)).Nodup then some found else none

structure Frame where
  written : QualifiedName
  name : ExpandedName
  attributes : List Attribute
  scope : Scope
  /-- The children so far, the last one first. -/
  reversed : List Node

namespace Frame

def open? (outer : Scope) (written : QualifiedName) (attributes : List WrittenAttribute) :
    Option Frame := do
  let scope := (← declarations? attributes) ++ outer
  let name ← scope.elementName? written
  return ⟨written, name, ← scope.attributes? attributes, scope, []⟩

def add (frame : Frame) (node : Node) : Frame :=
  { frame with reversed := node :: frame.reversed }

/-- Text behind text belongs to the same node. -/
def addText (frame : Frame) (content : String) : Frame :=
  match frame.reversed with
  | .text before :: rest => { frame with reversed := .text (before ++ content) :: rest }
  | _ => frame.add (.text content)

def node (frame : Frame) : Node :=
  .element frame.name frame.attributes frame.reversed.reverse

end Frame

/-- How far a document has been built: before its root element, inside some elements of which the
innermost is given first, or behind the root. -/
inductive Progress
  | before
  | inside (frame : Frame) (outer : List Frame)
  | behind (root : Node)

namespace Progress

def opened (frame : Frame) : Progress → Option Progress
  | before => some (inside frame [])
  | inside parent outer => some (inside frame (parent :: outer))
  | behind _ => none

def closed : Progress → Option Progress
  | inside frame [] => some (behind frame.node)
  | inside frame (parent :: outer) => some (inside (parent.add frame.node) outer)
  | _ => none

def scope : Progress → Scope
  | inside frame _ => frame.scope
  | _ => []

/-- Adds a node that may also stand outside the root, where it is not kept. -/
def note (progress : Progress) (node : Node) : Progress :=
  match progress with
  | inside frame outer => inside (frame.add node) outer
  | outside => outside

def step (progress : Progress) : Token → Option Progress
  | .opening name attributes closes => do
    let inner ← progress.opened (← Frame.open? progress.scope name attributes)
    if closes then inner.closed else return inner
  | .closing name =>
    match progress with
    | inside frame _ => if frame.written = name then progress.closed else none
    | _ => none
  | .characters raw =>
    match progress with
    | inside frame outer => do return inside (frame.addText (← characterData? raw)) outer
    | outside => if raw.all isSpace then some outside else none
  | .cdata raw =>
    match progress with
    | inside frame outer => some (inside (frame.addText (String.ofList (lineEnds raw))) outer)
    | _ => none
  | .comment content => some (progress.note (.comment content))
  | .instruction target content => some (progress.note (.instruction target content))

end Progress

/-- What keeps a text from being a document, by kind: neither where in the text it is found is told, nor which
names are involved. -/
inductive Fault
  | unknownToken
  /-- A token that may not stand where it stands, or a name in no known namespace. -/
  | misplacedToken
  | rootMissing
  | rootUnclosed
deriving DecidableEq, Repr

def Fault.message : Fault → String
  | unknownToken => "unknown token"
  | misplacedToken => "unexpected token"
  | rootMissing => "the document does not have a root node"
  | rootUnclosed => "the root node was opened but never closed"

/-- The element that holds all others of a document. -/
def rootOf (document : String) : Except Fault Node := do
  let some tokens := tokens? document.toList | .error .unknownToken
  match tokens.foldlM Progress.step .before with
  | none => .error .misplacedToken
  | some .before => .error .rootMissing
  | some (.inside ..) => .error .rootUnclosed
  | some (.behind root) => .ok root

theorem rootOf_eq_ok_iff {document : String} {root : Node} : rootOf document = .ok root ↔
    ∃ tokens, tokens? document.toList = some tokens ∧
      tokens.foldlM Progress.step .before = some (.behind root) := by
  unfold rootOf
  cases tokens? document.toList with
  | none => simp
  | some tokens =>
    cases ran : tokens.foldlM Progress.step .before with
    | none => simp [ran]
    | some progress => cases progress <;> simp [ran]

def root? (document : String) : Option Node := (rootOf document).toOption

theorem root?_eq_some_iff {document : String} {root : Node} :
    root? document = some root ↔ rootOf document = .ok root := by
  unfold root?
  cases rootOf document <;> simp [Except.toOption]

theorem root?_eq_none_iff {document : String} :
    root? document = none ↔ ∃ fault, rootOf document = .error fault := by
  unfold root?
  cases rootOf document <;> simp [Except.toOption]

end PetriCode.Xml
