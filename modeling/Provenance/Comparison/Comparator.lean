import Provenance.Comparison.Category

/-! Comparison of graph documents in part. An expected document is compared with
an actual one only where the category of a node is checked; a comparison lists
what it finds in order, and the first failure is its result. -/

namespace Provenance

inductive Finding where
  | linked (count : Nat) (path : List String)
  | failed (failure : Failure)

namespace Finding

def failure? : Finding → Option Failure
  | .linked _ _ => none
  | .failed failure => some failure

def mismatch (path : List String) (mismatch : Mismatch) : List Finding :=
  [.failed (.comparisonFailed path mismatch)]

/-- The first failure among findings is their outcome. -/
def outcome (findings : List Finding) : Except Failure Unit :=
  match findings.findSome? failure? with
  | some failure => .error failure
  | none => .ok ()

end Finding

structure Comparator where
  context : Json
  nodes : OrderedMap Json
  parts : List Category
  /-- The categories that are also compared where they are only referred to. -/
  references : List Category
  classify : Json → Category := Category.ofNode
  skipped : List String := []

namespace Comparator

/-- The nodes of a document by id. The last node of an id counts. -/
def index (document : Json) : Except Failure (OrderedMap Json) := do
  let some graph := (document.get? "@graph").bind Json.items?
    | throw (.malformedDocument .graphNotList)
  let nodes ← graph.mapM fun node =>
    match node.textAt? "@id" with
    | some id => .ok (id, node)
    | none => .error (.malformedDocument (.unidentified node))
  return OrderedMap.ofList nodes

def contextOf (document : Json) : Json := (document.get? "@context").getD .null

def create (expected : Json) (parts references : List Category) : Except Failure Comparator := do
  return { context := contextOf expected, nodes := ← index expected, parts, references }

/-- The id of an object that is or refers to an expected node. -/
def nodeId? (c : Comparator) (value : Json) : Option String :=
  match value with
  | .object _ => (value.textAt? "@id").filter c.nodes.contains
  | _ => none

/-- Whether an object holds nothing beside its id. -/
def isBare : Json → Bool
  | .object [_] => true
  | _ => false

/-- Whether a value takes part in the comparison. Everything does that neither
is an expected node nor refers to one; those do by their category. -/
def inScope (c : Comparator) (value : Json) : Bool :=
  match (c.nodeId? value).bind c.nodes.get? with
  | none => true
  | some node =>
    let category := c.classify node
    c.parts.contains category || (isBare value && c.references.contains category)

/-- Whether an expected value may be missing because all its items are out of
scope. -/
def mayBeMissing (c : Comparator) : Json → Bool
  | .array items => !items.any c.inScope
  | _ => false

/-- A check of an actual value that is found under a path. -/
abbrev Check := Json → List String → List Finding

/-- Checks expected members, each with the check of its value. -/
def checkMembers (c : Comparator) (expected : List (String × Json × Check))
    (actual : List (String × Json)) (path : List String) : List Finding :=
  expected.flatMap fun (key, value, check) =>
    if !c.inScope value then []
    else match Entries.get? key actual with
      | some found => check found (path ++ [key])
      | none =>
        if c.mayBeMissing value then []
        else Finding.mismatch (path ++ [key]) (.missing key)

/-- Pairs items with their ids, or finds the first without one. -/
def byId {α : Type} (json : α → Json) (items : List α) : Except Json (List (String × α)) :=
  items.mapM fun item =>
    match (json item).textAt? "@id" with
    | some id => .ok (id, item)
    | none => .error (json item)

def actualItems : Json → List Json
  | .array items => items
  | single => [single]

/-- Checks linked items, of which those with one id count as the last of them. -/
def checkItems (c : Comparator) (expected : List (Json × Check)) (actual : Json)
    (path : List String) : List Finding :=
  match byId Prod.fst (expected.filter fun item => c.inScope item.1) with
  | .error item => Finding.mismatch path (.itemWithoutId item)
  | .ok wanted =>
    match byId id (actualItems actual) with
    | .error item => Finding.mismatch path (.itemWithoutId item)
    | .ok found =>
      let wanted := Entries.collect wanted
      .linked wanted.length path :: c.checkMembers wanted (Entries.collect found) path

def isObjectList : Json → Bool
  | .array (first :: _) => first.isObject
  | _ => false

def checkEqual (expected actual : Json) (path : List String) : List Finding :=
  if expected.agrees actual then []
  else Finding.mismatch path (.unequal (path.getLast?.getD "") expected actual)

mutual

/-- Checks an actual value against an expected one. -/
def check (c : Comparator) : Json → Check
  | .object members => fun actual path =>
    match actual with
    | .object found => c.checkMembers (memberChecks c members) found path
    | other => Finding.mismatch path (.objectExpected other)
  | .array items => fun actual path =>
    if isObjectList (.array items) then c.checkItems (itemChecks c items) actual path
    else checkEqual (.array items) actual path
  | leaf => checkEqual leaf

def memberChecks (c : Comparator) : List (String × Json) → List (String × Json × Check)
  | [] => []
  | (key, value) :: rest => (key, value, check c value) :: memberChecks c rest

def itemChecks (c : Comparator) : List Json → List (Json × Check)
  | [] => []
  | item :: rest => (item, check c item) :: itemChecks c rest

end

def comparedNodes (c : Comparator) : List (String × Json) :=
  c.nodes.entries.filter fun (id, node) => !c.skipped.contains id && c.inScope node

def findings (c : Comparator) (actual : OrderedMap Json) : List Finding :=
  c.comparedNodes.flatMap fun (id, expected) =>
    match actual.get? id with
    | some found => c.check expected found ["@graph", id]
    | none => Finding.mismatch ["@graph", id] (.missing id)

def compare (c : Comparator) (actual : Json) : Except Failure Unit := do
  let context := contextOf actual
  if !context.agrees c.context then throw (.contextMismatch context c.context)
  let nodes ← index actual
  Finding.outcome (c.findings nodes)

end Comparator

end Provenance
