import Provenance.Failure
import Provenance.Yaml.Record

/-! Schema tables: for each node type the keys it requires, the keys it allows
beside them, and which keys hold references. Every node is also a thing. -/

namespace Provenance.Schema

def baseType : String := "Thing"

/-- Keys whose references may leave the document. -/
def exemptKeys : List String := ["identifier", "url", "conformsTo"]

structure Rule where
  required : List String := []
  allowed : List String := []
  references : List String := []
  deriving DecidableEq

namespace Rule

def permits (r : Rule) (key : String) : Bool := r.required.contains key || r.allowed.contains key

def isReference (r : Rule) (key : String) : Bool := r.references.contains key

end Rule

abbrev Table := OrderedMap Rule

open Yaml (Decoder Fields)

def Rule.decoder : Decoder Rule := fun d node => do
  let f ← Fields.ofNode ["required", "allowed", "references"] d node
  let keys := Decoder.list Decoder.text
  return { required := ← f.getD "required" keys []
           allowed := ← f.getD "allowed" keys []
           references := ← f.getD "references" keys [] }

/-- A repeated type keeps its place and takes its last rule. -/
def Table.decoder : Decoder Table := fun d node => do
  let rules ← (← Yaml.pairs d node).mapM fun (type, node) => do
    return (type, ← Rule.decoder d node)
  return OrderedMap.ofList rules

def Table.ofText (text : String) : Except Failure Table :=
  (Decoder.ofText Table.decoder text).mapError .undecodableYaml

def Rule.toJson (r : Rule) : Json :=
  .object [("required", .texts r.required), ("allowed", .texts r.allowed),
    ("references", .texts r.references)]

def Table.toJson (t : Table) : Json :=
  .object (t.entries.map fun (type, rule) => (type, rule.toJson))

end Provenance.Schema
