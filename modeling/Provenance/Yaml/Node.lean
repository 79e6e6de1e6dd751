import Provenance.Yaml.Lexer
import Provenance.OrderedMap

/-! The one document of a YAML text as a tree. A reference stays in the tree as
the slot it names: the node behind a slot may contain the reference itself. -/

namespace Provenance.Yaml

inductive Node where
  | scalar (tag : Option Tag) (plain : Bool) (text : String)
  | sequence (tag : Option Tag) (items : List Node)
  | mapping (tag : Option Tag) (entries : List (Node × Node))
  | reference (slot : Nat)

def Node.empty : Node := .scalar none true ""

instance : Inhabited Node := ⟨.empty⟩

/-- A node that references can name. `start` numbers such nodes in the order in
which they start. -/
structure Anchored where
  slot : Nat
  start : Nat
  node : Node

/-- A place in the tokens of a document, with what has been named before it. -/
structure Place where
  rest : List Token
  handles : List (String × Tag) := []
  names : List (String × Nat) := []
  started : Nat := 0
  anchored : List Anchored := []

namespace Place

def movedTo (p : Place) (rest : List Token) : Place := { p with rest }

/-- Whether the next token is one of those before which a node may be left out. -/
def leavesOut (p : Place) (tokens : List Token) : Bool := p.rest.head?.any tokens.contains

/-- The tag a handle and its rest stand for. The empty handle leaves the rest. -/
def expand (p : Place) (handle : String) (rest : Tag) : Except String Tag :=
  if handle = "" then .ok rest
  else match Entries.get? handle p.handles with
    | some expansion => .ok (expansion ++ rest)
    | none => .error "undefined tag handle"

/-- Reads an anchor and a tag, which may come in either order. -/
def properties (p : Place) : Except String (Option String × Option Tag × Place) := do
  match p.rest with
  | .anchor name :: .tag handle text :: rest =>
    return (some name, some (← p.expand handle text), p.movedTo rest)
  | .tag handle text :: .anchor name :: rest =>
    return (some name, some (← p.expand handle text), p.movedTo rest)
  | .anchor name :: rest => return (some name, none, p.movedTo rest)
  | .tag handle text :: rest => return (none, some (← p.expand handle text), p.movedTo rest)
  | _ => return (none, none, p)

/-- Reserves a slot for a name. A repeated name takes a slot by the number of
names, which a later name may take over. -/
def name (p : Place) (name : String) : Nat × Place :=
  (p.names.length,
    { p with names := Entries.insert name p.names.length p.names, started := p.started + 1 })

end Place

namespace Node

mutual

/-- Reads a node. `block` says whether a block may start here, and `dashes`
whether a sequence may stand at the column of the block around it. -/
def read (room : Nat) (block dashes : Bool) (p : Place) : Except String (Node × Place) :=
  match room with
  | 0 => .error "nesting without an end"
  | room + 1 => do
    if let .reference name :: rest := p.rest then
      match Entries.get? name p.names with
      | some slot => return (.reference slot, p.movedTo rest)
      | none => throw "unknown anchor"
    let (anchor, tag, p) ← p.properties
    match anchor with
    | none => content room block dashes tag (tag.isSome) p
    | some name =>
      let start := p.started
      let (slot, p) := p.name name
      let (node, p) ← content room block dashes tag true p
      return (node, { p with anchored := ⟨slot, start, node⟩ :: p.anchored })

/-- Reads what follows an anchor and a tag. Behind either, nothing at all is an
empty scalar. -/
def content (room : Nat) (block dashes : Bool) (tag : Option Tag) (mayLack : Bool)
    (p : Place) : Except String (Node × Place) :=
  match room with
  | 0 => .error "nesting without an end"
  | room + 1 => do
    match p.rest with
    | .scalar plain text :: rest => return (.scalar tag plain text, p.movedTo rest)
    | .flowSequence :: rest =>
      let (items, p) ← flowItems room true (p.movedTo rest)
      return (.sequence tag items, p)
    | .flowMapping :: rest =>
      let (entries, p) ← flowEntries room true (p.movedTo rest)
      return (.mapping tag entries, p)
    | token :: rest =>
      if dashes && token = .entry then
        let (items, p) ← dashedItems room p
        return (.sequence tag items, p)
      else if block && token = .blockSequence then
        let (items, p) ← blockItems room (p.movedTo rest)
        return (.sequence tag items, p)
      else if block && token = .blockMapping then
        let (entries, p) ← blockEntries room (p.movedTo rest)
        return (.mapping tag entries, p)
      else if mayLack then return (.scalar tag true "", p)
      else throw "expected a node"
    | [] => if mayLack then return (.scalar tag true "", p) else throw "expected a node"

def readUnless (room : Nat) (left : List Token) (block dashes : Bool) (p : Place) :
    Except String (Node × Place) :=
  match room with
  | 0 => .error "nesting without an end"
  | room + 1 => if p.leavesOut left then .ok (.empty, p) else read room block dashes p

def blockItems (room : Nat) (p : Place) : Except String (List Node × Place) :=
  match room with
  | 0 => .error "nesting without an end"
  | room + 1 => do
    match p.rest with
    | .entry :: rest =>
      let (item, p) ← readUnless room [.entry, .blockEnd] true false (p.movedTo rest)
      let (items, p) ← blockItems room p
      return (item :: items, p)
    | .blockEnd :: rest => return ([], p.movedTo rest)
    | _ => throw "expected a dash"

def dashedItems (room : Nat) (p : Place) : Except String (List Node × Place) :=
  match room with
  | 0 => .error "nesting without an end"
  | room + 1 => do
    match p.rest with
    | .entry :: rest =>
      let (item, p) ← readUnless room [.entry, .key, .value, .blockEnd] true false (p.movedTo rest)
      let (items, p) ← dashedItems room p
      return (item :: items, p)
    | _ => return ([], p)

def blockEntries (room : Nat) (p : Place) : Except String (List (Node × Node) × Place) :=
  match room with
  | 0 => .error "nesting without an end"
  | room + 1 => do
    match p.rest with
    | .key :: rest =>
      let left : List Token := [.key, .value, .blockEnd]
      let (key, p) ← readUnless room left true true (p.movedTo rest)
      let (value, p) ← match p.rest with
        | .value :: rest => readUnless room left true true (p.movedTo rest)
        | _ => .ok (.empty, p)
      let (entries, p) ← blockEntries room p
      return ((key, value) :: entries, p)
    | .blockEnd :: rest => return ([], p.movedTo rest)
    | _ => throw "expected a key"

def flowItems (room : Nat) (first : Bool) (p : Place) : Except String (List Node × Place) :=
  match room with
  | 0 => .error "nesting without an end"
  | room + 1 => do
    let p ← match first, p.rest with
      | false, .flowEntry :: rest => .ok (p.movedTo rest)
      | false, .flowSequenceEnd :: _ => .ok p
      | false, _ => throw "expected a comma or a closing bracket"
      | true, _ => .ok p
    match p.rest with
    | .flowSequenceEnd :: rest => return ([], p.movedTo rest)
    | .key :: rest =>
      let (pair, p) ← flowPair room (p.movedTo rest)
      let (items, p) ← flowItems room false p
      return (.mapping none [pair] :: items, p)
    | _ =>
      let (item, p) ← read room false false p
      let (items, p) ← flowItems room false p
      return (item :: items, p)

/-- Reads a single pair among the items of a bracket. A key left out takes the
next token with it. -/
def flowPair (room : Nat) (p : Place) : Except String ((Node × Node) × Place) :=
  match room with
  | 0 => .error "nesting without an end"
  | room + 1 => do
    let (key, p) ← if p.leavesOut [.value, .flowEntry, .flowSequenceEnd]
      then .ok (.empty, p.movedTo (p.rest.drop 1)) else read room false false p
    match p.rest with
    | .value :: rest =>
      let (value, p) ← readUnless room [.flowEntry, .flowSequenceEnd] false false (p.movedTo rest)
      return ((key, value), p)
    | _ => return ((key, .empty), p)

def flowEntries (room : Nat) (first : Bool) (p : Place) :
    Except String (List (Node × Node) × Place) :=
  match room with
  | 0 => .error "nesting without an end"
  | room + 1 => do
    let p ← match first, p.rest with
      | false, .flowEntry :: rest => .ok (p.movedTo rest)
      | false, .flowMappingEnd :: _ => .ok p
      | false, _ => throw "expected a comma or a closing brace"
      | true, _ => .ok p
    match p.rest with
    | .flowMappingEnd :: rest => return ([], p.movedTo rest)
    | .key :: rest =>
      let left : List Token := [.flowEntry, .flowMappingEnd]
      let (key, p) ← readUnless room (.value :: left) false false (p.movedTo rest)
      let (value, p) ← match p.rest with
        | .value :: rest => readUnless room left false false (p.movedTo rest)
        | _ => .ok (.empty, p)
      let (entries, p) ← flowEntries room false p
      return ((key, value) :: entries, p)
    | _ =>
      let (key, p) ← read room false false p
      let (entries, p) ← flowEntries room false p
      return ((key, .empty) :: entries, p)

end

end Node

namespace Node

mutual

/-- How many events spell a node: one for a leaf, and one for either end of a
collection. -/
def events : Node → Nat
  | .scalar _ _ _ => 1
  | .reference _ => 1
  | .sequence _ items => itemEvents items + 2
  | .mapping _ entries => entryEvents entries + 2

def itemEvents : List Node → Nat
  | [] => 0
  | item :: rest => item.events + itemEvents rest

def entryEvents : List (Node × Node) → Nat
  | [] => 0
  | (key, value) :: rest => key.events + value.events + entryEvents rest

end

end Node

structure Document where
  root : Node
  anchored : List Anchored := []

namespace Document

/-- The node that a slot stands for: of those that took it the latest to start. -/
def target? (d : Document) (slot : Nat) : Option Node :=
  let later (best : Option Anchored) (other : Anchored) : Option Anchored :=
    if other.slot = slot && best.all (·.start < other.start) then some other else best
  (d.anchored.foldl later none).map Anchored.node

/-- The tag handles every document knows unless it says otherwise. -/
def defaultHandles : List (String × Tag) :=
  [("!", Tag.ofText "!".toList), ("!!", Tag.ofText "tag:yaml.org,2002:".toList)]

/-- Reads directives: at most one version, which is 1.1 or 1.2, and handles
with different names. -/
def directives (versioned : Bool) (handles : List (String × Tag)) :
    List Token → Except String (List (String × Tag) × List Token)
  | .version major minor :: rest =>
    if versioned then .error "repeated version directive"
    else if major = 1 && (minor = 1 || minor = 2) then directives true handles rest
    else .error "unknown version"
  | .handle name expansion :: rest =>
    if (Entries.get? name handles).isSome then .error "repeated tag handle"
    else directives versioned (handles ++ [(name, expansion)]) rest
  | rest => .ok (handles ++ defaultHandles, rest)

def ends : Token → Bool
  | .version _ _ | .handle _ _ | .documentStart | .documentEnd => true
  | _ => false

def opensExplicitly : List Token → Bool
  | .version _ _ :: _ | .handle _ _ :: _ | .documentStart :: _ => true
  | _ => false

/-- Enough for every node of so many tokens: each call but two in a row passes
a token. -/
def roomFor (tokens : List Token) : Nat := 4 * tokens.length + 8

def ofTokens (tokens : List Token) : Except String Document := do
  let whole (handles : List (String × Tag)) (rest : List Token) :=
    Node.read (roomFor tokens) true false { rest, handles }
  let (root, p) ← show Except String (Node × Place) from
    if tokens.isEmpty then .ok (.empty, { rest := [] })
    else if opensExplicitly tokens then do
      match ← directives false [] tokens with
      | (handles, .documentStart :: rest) =>
        if rest.head?.all ends then return (.empty, { rest }) else whole handles rest
      | _ => throw "expected the start of a document"
    else whole defaultHandles tokens
  if (p.rest.dropWhile (· = .documentEnd)).isEmpty then
    return { root, anchored := p.anchored }
  else throw "more than one document"

def ofText (text : String) : Except String Document := do
  ofTokens (← Token.ofText text)

end Document

end Provenance.Yaml
