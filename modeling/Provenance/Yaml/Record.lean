import Provenance.Yaml.Node

/-! Reading records from YAML. Where a text is expected every scalar stands for
itself as it is written, whatever else it might mean. References may spell a
large value in few words, so only so many of them are followed. -/

namespace Provenance.Yaml

/-- A reading that may follow so many more references. -/
abbrev Reading := StateT Nat (Except String)

/-- Turns a node of a document into a value. -/
abbrev Decoder (α : Type) := Document → Node → Reading α

/-- How many references may be followed for each event of a document. -/
def followLimit : Nat := 100

def Document.follow (d : Document) : Node → Reading Node
  | .reference slot => do
    match ← get, d.target? slot with
    | room + 1, some node => do
      set room
      return node
    | 0, _ => throw "too many references"
    | _, none => throw "unknown anchor"
  | node => return node

def isNullWord (text : String) : Bool :=
  text = "null" || text = "Null" || text = "NULL" || text = "~"

def nullTag : Tag := Tag.ofText "tag:yaml.org,2002:null".toList

namespace Decoder

variable {α : Type}

def ofText (decoder : Decoder α) (text : String) : Except String α := do
  let document ← Document.ofText text
  (decoder document document.root).run' (followLimit * document.root.events)

def text : Decoder String := fun d node => do
  match ← d.follow node with
  | .scalar _ _ text => return text
  | _ => throw "expected a scalar"

/-- A text that may be missing: only a plain scalar can say so, by a word for
null or by nothing at all. -/
def optionalText : Decoder (Option String) := fun d node => do
  match ← d.follow node with
  | .scalar tag plain text =>
    if !plain then return some text
    match tag with
    | none => return (if text = "" || isNullWord text then none else some text)
    | some tag =>
      if tag ≠ nullTag then return some text
      else if isNullWord text then return none
      else throw "expected null"
  | _ => throw "expected a scalar"

/-- A list. Nothing at all is the empty list. -/
def list (item : Decoder α) : Decoder (List α) := fun d node => do
  match ← d.follow node with
  | .sequence _ items => items.mapM (item d)
  | .scalar _ true "" => return []
  | _ => throw "expected a list"

/-- The name after the exclamation mark of a local tag. Bytes that are no text
name nothing. -/
def localTag? (tag : Option Tag) : Option String := do
  match ← tag with
  | [] => none
  | mark :: name =>
    guard (mark = '!'.toUInt8)
    String.fromUTF8? ⟨name.toArray⟩

/-- One of several named choices: a scalar that is the name, or the name as the
tag of a scalar that is null or nothing. -/
def choice (choices : List (String × α)) : Decoder α := fun d node => do
  let named (name : String) : Reading α :=
    match Entries.get? name choices with
    | some value => return value
    | none => throw "unknown choice"
  match ← d.follow node with
  | .scalar tag plain text =>
    match localTag? tag with
    | none => named text
    | some name =>
      if plain && (text = "" || isNullWord text) then named name
      else throw "a choice holds nothing"
  | _ => throw "expected a choice"

end Decoder

/-- The pairs of a mapping with the texts of their keys. Nothing at all is the
empty mapping. -/
def pairs (d : Document) (node : Node) : Reading (List (String × Node)) := do
  match ← d.follow node with
  | .mapping _ entries => entries.mapM fun (key, value) => do
    return (← Decoder.text d key, value)
  | .scalar _ true "" => return []
  | _ => throw "expected a mapping"

/-- The fields of a record. Pairs under other names are left alone. -/
structure Fields where
  document : Document
  pairs : List (String × Node)

namespace Fields

def ofNode (names : List String) (d : Document) (node : Node) : Reading Fields := do
  let pairs ← Yaml.pairs d node
  if names.all fun name => pairs.countP (·.1 = name) ≤ 1 then return ⟨d, pairs⟩
  else throw "repeated field"

variable {α : Type}

def optional (f : Fields) (name : String) (decoder : Decoder α) : Reading (Option α) := do
  match Entries.get? name f.pairs with
  | some node => return some (← decoder f.document node)
  | none => return none

def required (f : Fields) (name : String) (decoder : Decoder α) : Reading α := do
  match ← f.optional name decoder with
  | some value => return value
  | none => throw ("missing field " ++ name)

def getD (f : Fields) (name : String) (decoder : Decoder α) (default : α) : Reading α := do
  return (← f.optional name decoder).getD default

end Fields

end Provenance.Yaml
