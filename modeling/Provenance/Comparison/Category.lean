import Provenance.Graph.Draft
import Provenance.Text.Casing

/-! The parts of a provenance crate, and which part a node belongs to. -/

namespace Provenance

inductive Category where
  /-- What is known before a run: workflow, steps, tools, parameters. -/
  | prospective
  /-- What a run leaves behind: actions, agents, values. -/
  | retrospective
  | orchestration
  | metadata
  | other
  deriving DecidableEq

namespace Category

def name : Category → String
  | .prospective => "prospective"
  | .retrospective => "retrospective"
  | .orchestration => "orchestration"
  | .metadata => "metadata"
  | .other => "other"

def all : List Category := [.prospective, .retrospective, .orchestration, .metadata, .other]

/-- The category with a name, whatever its case and the white space around it.
A name that is none is handed back in lower case. -/
def ofName (text : String) : Except String Category :=
  let lower := Text.lowercase (Text.trim Text.isWhiteSpace text.toList)
  let lower := String.ofList lower
  match all.find? fun category => category.name = lower with
  | some category => .ok category
  | none => .error lower

/-- Which types make a node part of something: one exact type, one of several,
or several together. -/
inductive TypePattern where
  | exactly (type : String)
  | oneOf (types : List String)
  | allOf (types : List String)

/-- A list of one type counts as that type. Entries that are not texts do not
count at all. -/
def typesOf (node : Json) : List String :=
  match node.get? "@type" with
  | some (.string single) => [single]
  | some (.array items) => items.filterMap Json.text?
  | _ => []

def TypePattern.fits (types : List String) : TypePattern → Bool
  | .exactly type => types == [type]
  | .oneOf options => types.length == 1 && types.all options.contains
  | .allOf expected =>
    types.length != 1 && types.length == expected.length && expected.all types.contains

def prospectivePatterns : List TypePattern :=
  [.allOf Graph.workflowTypes, .exactly "HowToStep", .exactly "SoftwareApplication",
    .exactly "FormalParameter", .exactly "ParameterConnection"]

def retrospectivePatterns : List TypePattern :=
  [.exactly "OrganizeAction", .exactly "ControlAction", .exactly "CreateAction",
    .oneOf ["Person", "Organisation"], .oneOf ["File", "PropertyValue"]]

/-- The part a node belongs to by its id and types. The ids of the descriptor
and the root come before any type. -/
def ofNode (node : Json) : Category :=
  let id := (node.textAt? "@id").getD ""
  let types := typesOf node
  if id = Graph.metadataId then .metadata
  else if id = Graph.rootId || (TypePattern.exactly "Dataset").fits types then .orchestration
  else if prospectivePatterns.any (TypePattern.fits types) then .prospective
  else if retrospectivePatterns.any (TypePattern.fits types) then .retrospective
  else .other

end Category

end Provenance
