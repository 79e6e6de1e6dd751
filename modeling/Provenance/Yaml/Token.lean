import Provenance.Yaml.Scalar

/-! The tokens of a YAML text, and those read from their own characters alone.
Where blocks start and end depends on indentation and is decided elsewhere. -/

namespace Provenance.Yaml

/-- A tag by its bytes, since percent escapes can spell bytes that are no text. -/
abbrev Tag := List UInt8

namespace Tag

def ofText (text : List Char) : Tag := text.flatMap String.utf8EncodeChar

def nonspecific : Tag := ofText ['!']

end Tag

inductive Token where
  | version (major minor : Nat)
  | handle (name : String) (expansion : Tag)
  | documentStart
  | documentEnd
  | blockSequence
  | blockMapping
  | blockEnd
  | flowSequence
  | flowSequenceEnd
  | flowMapping
  | flowMappingEnd
  | entry
  | flowEntry
  | key
  | value
  | reference (name : String)
  | anchor (name : String)
  | tag (handle : String) (rest : Tag)
  | scalar (plain : Bool) (text : String)
  deriving DecidableEq

namespace Token

def isTagChar (listed : Bool) (c : Char) : Bool :=
  isWordChar c || ";/?:@&=+$.!~*'()%".toList.contains c ||
    (listed && (c = ',' || c = '[' || c = ']'))

/-- The number of bytes of the character that a UTF-8 byte starts. -/
def width? (byte : Nat) : Option Nat :=
  if byte < 0x80 then some 1
  else if 0xC0 ≤ byte ∧ byte < 0xE0 then some 2
  else if 0xE0 ≤ byte ∧ byte < 0xF0 then some 3
  else if 0xF0 ≤ byte ∧ byte < 0xF8 then some 4
  else none

/-- The bytes of a tag's characters, where a percent escape spells one of them.
`pending` bytes are still missing from a character begun by an escape. -/
def unescape? (pending : Nat) : List Char → Option Tag
  | [] => if pending = 0 then some [] else none
  | '%' :: a :: b :: rest => do
    let byte := 16 * (← Scalar.hexValue? a) + (← Scalar.hexValue? b)
    guard (pending = 0 ∨ 0x80 ≤ byte ∧ byte < 0xC0)
    let missing := (← if pending = 0 then width? byte else some pending) - 1
    return UInt8.ofNat byte :: (← unescape? missing rest)
  | c :: rest =>
    if c = '%' || pending ≠ 0 then none
    else (unescape? 0 rest).map (UInt8.ofNat c.toNat :: ·)

/-- Reads the characters of a tag behind its handle. A zero byte ends the tag,
whatever else is written. -/
def tagText (listed required : Bool) (c : Cursor) : Except String (Tag × Cursor) := do
  let (run, behind) := c.span (isTagChar listed)
  if required && run.isEmpty then throw "a tag has a text"
  match unescape? 0 run with
  | some bytes => return (bytes.takeWhile (· ≠ 0), behind)
  | none => throw "malformed escape in a tag"

/-- Reads a tag handle: an exclamation mark, letters, and a closing mark, which
only directives require. -/
def tagHandle (closed : Bool) (c : Cursor) : Except String (List Char × Cursor) := do
  if !c.sees '!' then throw "a tag handle starts with an exclamation mark"
  let (word, behind) := (c.skip 1).span isWordChar
  if behind.sees '!' then return ('!' :: word ++ ['!'], behind.skip 1)
  if closed && !word.isEmpty then throw "a tag handle ends with an exclamation mark"
  return ('!' :: word, behind)

/-- Reads a tag. Its handle is empty where the text is the whole tag. -/
def readTag (flow : Bool) (c : Cursor) : Except String (Token × Cursor) := do
  let (token, behind) ← show Except String (Token × Cursor) from do
    if c.peek? 1 = some '<' then
      let (text, behind) ← tagText true true (c.skip 2)
      if !behind.sees '>' then throw "malformed verbatim tag"
      return (.tag "" text, behind.skip 1)
    let (start, behind) ← tagHandle false c
    if 1 < start.length && start.getLast? = some '!' then
      let (text, behind) ← tagText false true behind
      return (.tag (String.ofList start) text, behind)
    let (text, behind) ← tagText false false behind
    let whole := Tag.ofText (start.drop 1) ++ text
    return (if whole.isEmpty then .tag "" Tag.nonspecific else .tag "!" whole, behind)
  if !behind.gapAt 0 && !(flow && behind.sees ',') then throw "a tag ends with a gap"
  return (token, behind)

def readName (c : Cursor) : Except String (String × Cursor) := do
  let (name, behind) := (c.skip 1).span isWordChar
  let ends := behind.gapAt 0 || behind.rest.head?.any fun c => "?:,]\x7d%@`".toList.contains c
  if name.isEmpty || !ends then throw "an anchor has letters and digits only"
  return (String.ofList name, behind)

def versionNumber (c : Cursor) : Except String (Nat × Cursor) := do
  let (digits, behind) := c.span Char.isDigit
  if digits.isEmpty || 9 < digits.length then throw "malformed version number"
  return (digits.foldl (fun n d => 10 * n + (d.toNat - '0'.toNat)) 0, behind)

def readDirective (c : Cursor) : Except String (Token × Cursor) := do
  let (name, behind) := (c.skip 1).span isWordChar
  if !behind.gapAt 0 then throw "malformed directive name"
  let (_, argument) := behind.span isBlank
  let (token, behind) ← show Except String (Token × Cursor) from do
    if name = ['Y', 'A', 'M', 'L'] then
      let (major, behind) ← versionNumber argument
      if !behind.sees '.' then throw "malformed version number"
      let (minor, behind) ← versionNumber (behind.skip 1)
      return (.version major minor, behind)
    if name = ['T', 'A', 'G'] then
      let (name, behind) ← tagHandle true argument
      if !(behind.rest.head?.any isBlank) then throw "malformed tag directive"
      let (_, behind) := behind.span isBlank
      let (expansion, behind) ← tagText true true behind
      if !behind.gapAt 0 then throw "malformed tag directive"
      return (.handle (String.ofList name) expansion, behind)
    throw "unknown directive"
  let (_, behind) := behind.span isBlank
  let behind := if behind.sees '#' then (behind.span (!isBreak ·)).2 else behind
  if !behind.gapAt 0 then throw "a directive ends its line"
  return (token, if behind.rest.isEmpty then behind else behind.newline)

end Token

end Provenance.Yaml
