import Provenance.Json.Source

/-! Flow plans: named states, each chained to the next one by its name. -/

namespace Provenance.Flow

def computeAction : String := "https://compute.actions.globus.org"

def transferAction : String := "https://transfer.actions.globus.org/transfer/"

def transferActions : List String :=
  [transferAction, "https://actions.automate.globus.org/transfer/transfer"]

inductive ActionKind where
  | compute
  | transfer
  deriving DecidableEq

def ActionKind.name : ActionKind → String
  | .compute => "compute"
  | .transfer => "transfer"

def ActionKind.ofAction? (action : String) : Option ActionKind :=
  if action = computeAction then some .compute
  else if transferActions.contains action then some .transfer
  else none

structure State where
  comment : Option String := none
  type : String := "Action"
  action : String
  /-- Fields in literal, lookup or expression form. -/
  parameters : OrderedMap Json := {}
  resultPath : Option String := none
  next : Option String := none
  ending : Option Bool := none
  /-- Every other member, in the order it was written. -/
  extra : OrderedMap Json := {}

namespace State

def kind? (s : State) : Option ActionKind := ActionKind.ofAction? s.action

def withParameter (s : State) (key : String) (value : Json) : State :=
  { s with parameters := s.parameters.insert key value }

def chainTo (s : State) (next : String) : State := { s with next := some next, ending := none }

def terminal (s : State) : State := { s with next := none, ending := some true }

/-- The state that runs after this one. A state marked as the end has none,
whatever it names. -/
def following? (s : State) : Option String := if s.ending = some true then none else s.next

def isTerminal (s : State) : Bool := s.following?.isNone

end State

structure Plan where
  comment : Option String := none
  start : String
  states : OrderedMap State := {}

namespace Plan

def withState (p : Plan) (name : String) (state : State) : Plan :=
  { p with states := p.states.insert name state }

def state? (p : Plan) (name : String) : Option State := p.states.get? name

def size (p : Plan) : Nat := p.states.size

def isEmpty (p : Plan) : Bool := p.states.isEmpty

end Plan

end Provenance.Flow
