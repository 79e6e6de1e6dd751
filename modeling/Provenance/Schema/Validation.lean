import Provenance.Schema.Draft

/-! Validation of graph documents against a schema table. It stops at the first
violation: first the shape of the document and its ids, then one node after
the other, and in a node types, unknown keys, missing keys, values. -/

namespace Provenance.Schema

/-- The id of an object that holds an id and nothing else. -/
def linkTarget? : Json → Option String
  | .object [("@id", .string id)] => some id
  | _ => none

/-- The ids of a reference or of a list of references. -/
def targets? : Json → Option (List String)
  | .array items => items.mapM linkTarget?
  | single => (linkTarget? single).map ([·])

def isScalar : Json → Bool
  | .array _ | .object _ => false
  | _ => true

def isPlain : Json → Bool
  | .array items => items.all isScalar
  | single => isScalar single

/-- The types of a node: one text, or a list of texts that is not empty. -/
def typesOf (id : String) (node : List (String × Json)) : Except Failure (List String) :=
  match Entries.get? "@type" node with
  | some (.string single) => .ok [single]
  | some (.array []) => .error (.malformedDocument (.untyped id))
  | some (.array items) =>
    items.mapM fun item =>
      match item.text? with
      | some type => .ok type
      | none => .error (.malformedDocument (.typeNotText id item))
  | _ => .error (.malformedDocument (.untyped id))

def rulesOf (table : Table) (id : String) (node : List (String × Json)) :
    Except Failure (List Rule) := do
  (baseType :: (← typesOf id node)).mapM fun type =>
    match table.get? type with
    | some rule => .ok rule
    | none => .error (.schemaTypeUnknown id type)

def properties (node : List (String × Json)) : List (String × Json) :=
  node.filter fun member => member.1 ≠ "@id" && member.1 ≠ "@type"

def checkPermitted (rules : List Rule) (id key : String) : Except Failure Unit :=
  if rules.any fun rule => rule.permits key then .ok () else .error (.disallowedKey id key)

def checkPresent (node : List (String × Json)) (id key : String) : Except Failure Unit :=
  if (Entries.get? key node).isSome then .ok () else .error (.missingRequiredKey id key)

def checkValue (rules : List Rule) (ids : List String) (id key : String) (value : Json) :
    Except Failure Unit :=
  if rules.any fun rule => rule.isReference key then
    match targets? value with
    | none => .error (.invalidReferenceShape id key)
    | some targets =>
      if exemptKeys.contains key then .ok ()
      else match targets.find? fun target => !ids.contains target with
        | some target => .error (.danglingReference id key target)
        | none => .ok ()
  else if isPlain value then .ok ()
  else .error (.malformedDocument (.notPlain id key))

def checkNode (table : Table) (ids : List String) (id : String) (node : List (String × Json)) :
    Except Failure Unit := do
  let rules ← rulesOf table id node
  (properties node).forM fun member => checkPermitted rules id member.1
  (rules.flatMap Rule.required).forM (checkPresent node id)
  (properties node).forM fun member => checkValue rules ids id member.1 member.2

/-- The nodes of a graph with their ids, given how many nodes and which ids are
before them. -/
def identify (index : Nat) (seen : List String) :
    List Json → Except Failure (List (String × List (String × Json)))
  | [] => .ok []
  | item :: rest =>
    match item.members? with
    | none => .error (.malformedDocument (.nodeNotObject index))
    | some members =>
      match item.textAt? "@id" with
      | none => .error (.malformedDocument (.nodeWithoutId index))
      | some id =>
        if id ∈ seen then .error (.graphIdCollision id)
        else do return (id, members) :: (← identify (index + 1) (id :: seen) rest)

def nodesOf (document : Json) : Except Failure (List (String × List (String × Json))) :=
  match document.textAt? "@context" with
  | none => .error (.malformedDocument .contextNotText)
  | some _ =>
    match (document.get? "@graph").bind Json.items? with
    | none => .error (.malformedDocument .graphNotList)
    | some graph => identify 0 [] graph

def validate (table : Table) (document : Json) : Except Failure Unit := do
  let nodes ← nodesOf document
  let ids := nodes.map Prod.fst
  nodes.forM fun (id, members) => checkNode table ids id members

end Provenance.Schema
