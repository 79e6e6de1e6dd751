import Provenance.Graph.Document

/-! Documents that are changed by one call after the other. A store keeps the place of
every node beside the nodes, so that no call has to search for an id. -/

namespace Provenance.Graph

structure Store extends Document where
  /-- The place among the nodes that each id has. -/
  places : OrderedMap Nat := {}

namespace Store

def node? (s : Store) (id : String) : Option Node := (s.places.get? id).bind (s.nodes[·]?)

def contains (s : Store) (id : String) : Bool := s.places.contains id

/-- Adds a node at the end, unless a node of its id is there already. -/
def add (node : Node) : EStateM Failure Store Unit := do
  match (← get).node? node.id with
  | some known => unless known.agrees node do throw (.graphIdCollision node.id)
  | none =>
    modify fun s => { s with places := s.places.insert node.id s.nodes.length }
    modify fun s => { s with nodes := s.nodes ++ [node] }

/-- Changes one property of the node at the place of an id. -/
def setProperty (id key : String) (value : Property) : EStateM Failure Store Unit := do
  match (← get).places.get? id with
  | some place => modify fun s => { s with nodes := s.nodes.modify place (·.setProperty key value) }
  | none => throw (.malformedDocument (.unknownNode id key))

inductive Call where
  | add (node : Node)
  | setProperty (id key : String) (value : Property)

def Call.perform : Call → EStateM Failure Store Unit
  | .add node => Store.add node
  | .setProperty id key value => Store.setProperty id key value

/-- What a call comes to, and the store that it leaves behind. -/
def answer (s : Store) (call : Call) : Except Failure Unit × Store :=
  match call.perform.run s with
  | .ok _ after => (.ok (), after)
  | .error fault after => (.error fault, after)

/-- The store after some calls. Calls go on behind one that fails. -/
def run (s : Store) (calls : List Call) : Store := calls.foldl (fun s call => (s.answer call).2) s

end Store

/-- Adds nodes to an empty store, up to the first that is refused. -/
def Document.ofNodes (context : String) (nodes : List Node) : Except Failure Document :=
  match (nodes.forM Store.add).run { context } with
  | .ok _ s => .ok s.toDocument
  | .error fault _ => .error fault

end Provenance.Graph
