import Provenance.Failure

/-! Linked-data documents: nodes with typed properties that refer to each other
by id. A document has one node for an id, and a node can be added again only
with the content it already has. -/

namespace Provenance.Graph

inductive Property where
  | text (value : String)
  | link (id : String)
  | links (ids : List String)
  | texts (values : List String)
  deriving DecidableEq

structure Node where
  id : String
  types : List String
  properties : OrderedMap Property := {}

namespace Node

def property? (n : Node) (key : String) : Option Property := n.properties.get? key

def hasType (n : Node) (type : String) : Bool := n.types.contains type

def setProperty (n : Node) (key : String) (value : Property) : Node :=
  { n with properties := n.properties.insert key value }

/-- Whether two nodes of one id say the same. The order of properties does not
matter, the order of types does. -/
def agrees (a b : Node) : Bool :=
  a.types == b.types && a.properties.size == b.properties.size &&
    a.properties.entries.all fun (key, value) => b.property? key == some value

end Node

structure Document where
  context : String
  nodes : List Node := []

namespace Document

def node? (d : Document) (id : String) : Option Node := d.nodes.find? fun node => node.id = id

def contains (d : Document) (id : String) : Bool := (d.node? id).isSome

def ids (d : Document) : List String := d.nodes.map Node.id

def size (d : Document) : Nat := d.nodes.length

def isEmpty (d : Document) : Bool := d.nodes.isEmpty

def add (d : Document) (node : Node) : Except Failure Document :=
  match d.node? node.id with
  | none => .ok { d with nodes := d.nodes ++ [node] }
  | some known => if known.agrees node then .ok d else .error (.graphIdCollision node.id)

/-- Changes one property of one node and nothing else. -/
def setProperty (d : Document) (id key : String) (value : Property) : Except Failure Document :=
  if d.contains id then
    .ok { d with nodes := d.nodes.map fun node =>
      if node.id = id then node.setProperty key value else node }
  else .error (.malformedDocument (.unknownNode id key))

end Document

def linkJson (id : String) : Json := .object [("@id", .string id)]

def Property.toJson : Property → Json
  | .text value => .string value
  | .link id => linkJson id
  | .links ids => .array (ids.map linkJson)
  | .texts values => .texts values

/-- The members of a node as they are written. A single type stands alone. -/
def Node.members (n : Node) : List (String × Json) :=
  let types := match n.types with
    | [single] => Json.string single
    | several => .texts several
  ("@id", .string n.id) :: ("@type", types) ::
    n.properties.entries.map fun (key, value) => (key, value.toJson)

/-- A node as a value. A property under a name of its own replaces the id or
the types. -/
def Node.toJson (n : Node) : Json := Json.ofMembers n.members

namespace Document

def frame (d : Document) (nodes : List Json) : Json :=
  .object [("@context", .string d.context), ("@graph", .array nodes)]

def toJson (d : Document) : Json := d.frame (d.nodes.map Node.toJson)

/-- The text of a document, with every member of every node. -/
def text (d : Document) : String := (d.frame (d.nodes.map fun node => .object node.members)).pretty

end Document

end Provenance.Graph
