import Provenance.Yaml.Token

/-! Splitting a YAML text into tokens. Whether a node is a key only shows at the
colon behind it, so each level of brackets remembers the place where its latest
node started, and the key token is put there afterwards. -/

namespace Provenance.Yaml

/-- A place that turns into a key when a colon follows on its line within 1024
bytes. A required one must turn into a key. -/
structure Candidate where
  token : Nat
  required : Bool
  offset : Nat
  line : Nat
  column : Nat

structure Lexer where
  cursor : Cursor
  tokens : Array Token := #[]
  /-- The columns of the open blocks, innermost first. -/
  indents : List Nat := []
  keyAllowed : Bool := true
  candidate : Option Candidate := none
  /-- The candidates of the levels around the innermost brackets. -/
  shelved : List (Option Candidate) := []

namespace Lexer

def flow (l : Lexer) : Bool := !l.shelved.isEmpty

def indent (l : Lexer) : Int := l.indents.head?.elim (-1) Int.ofNat

def emit (l : Lexer) (token : Token) : Lexer := { l with tokens := l.tokens.push token }

def forget (l : Lexer) : Except String Lexer :=
  if l.candidate.any Candidate.required then .error "expected a colon behind a key"
  else .ok { l with candidate := none }

def remember (l : Lexer) : Except String Lexer := do
  if !l.keyAllowed then return l
  let required := !l.flow && l.indent = l.cursor.column
  let l ← l.forget
  let place : Candidate :=
    { token := l.tokens.size, required, offset := l.cursor.offset, line := l.cursor.line,
      column := l.cursor.column }
  return { l with candidate := some place }

/-- A candidate whose colon can still come. -/
def still (cursor : Cursor) (place : Option Candidate) : Except String (Option Candidate) :=
  match place with
  | none => .ok none
  | some p =>
    if p.line < cursor.line || p.offset + 1024 < cursor.offset then
      if p.required then .error "expected a colon behind a key" else .ok none
    else .ok (some p)

def dropStale (l : Lexer) : Except String Lexer := do
  let candidate ← still l.cursor l.candidate
  let shelved ← l.shelved.mapM (still l.cursor)
  return { l with candidate, shelved }

def unroll (l : Lexer) (column : Int) : Lexer :=
  if l.flow then l
  else
    let deeper := l.indents.takeWhile fun (indent : Nat) => column < indent
    { l with
      indents := l.indents.drop deeper.length
      tokens := l.tokens ++ Array.replicate deeper.length Token.blockEnd }

/-- Starts a block at a column deeper than the innermost block. Its token goes
in front of the tokens from `place` on. -/
def roll (l : Lexer) (column place : Nat) (token : Token) : Lexer :=
  if l.flow || column ≤ l.indent then l
  else { l with
    indents := column :: l.indents
    tokens := l.tokens.insertIdxIfInBounds place token }

def skip (l : Lexer) (count : Nat) : Lexer := { l with cursor := l.cursor.skip count }

/-- Passes blanks, comments, line breaks and byte order marks, one of which may
start a line. A line break outside of brackets makes room for a key, and there
tabs are not passed. -/
def toToken (l : Lexer) : Lexer :=
  let tabs := l.flow || !l.keyAllowed
  let marked := l.cursor.column = 0 && l.cursor.sees '\uFEFF'
  let c := if marked then l.cursor.skip 1 else l.cursor
  let (_, c) := c.span fun char => char = ' ' || (tabs && char = '\t')
  let c := if c.sees '#' then (c.span (!isBreak ·)).2 else c
  if c.rest.head?.any isBreak then
    let next := c.newline
    if next.rest.length < l.cursor.rest.length then
      toToken { l with cursor := next, keyAllowed := l.keyAllowed || !l.flow }
    else { l with cursor := c }
  else { l with cursor := c }
termination_by l.cursor.rest.length

/-- Lexes what stands at the margin: a directive or a document's mark. -/
def margin (l : Lexer) (found : Except String (Token × Cursor)) : Except String Lexer := do
  let l ← (l.unroll (-1)).forget
  let (token, cursor) ← found
  return { l.emit token with cursor, keyAllowed := false }

def openFlow (l : Lexer) (token : Token) : Except String Lexer := do
  let l ← l.remember
  return { (l.emit token).skip 1 with
    keyAllowed := true, candidate := none, shelved := l.candidate :: l.shelved }

def closeFlow (l : Lexer) (token : Token) : Except String Lexer := do
  let l ← l.forget
  let l := (l.emit token).skip 1
  match l.shelved with
  | [] => return { l with keyAllowed := false }
  | candidate :: shelved => return { l with keyAllowed := false, candidate, shelved }

/-- Lexes a dash or question mark, which starts a block unless one is open. -/
def mark (l : Lexer) (block token : Token) (keyAllowed : Bool) : Except String Lexer := do
  if !l.flow && !l.keyAllowed then throw "a block cannot start here"
  let l ← (l.roll l.cursor.column l.tokens.size block).forget
  return { (l.emit token).skip 1 with keyAllowed }

def colon (l : Lexer) : Except String Lexer := do
  match l.candidate with
  | some place =>
    let l := { l with tokens := l.tokens.insertIdxIfInBounds place.token .key, candidate := none }
    let l := l.roll place.column place.token .blockMapping
    return { (l.emit .value).skip 1 with keyAllowed := false }
  | none =>
    if !l.flow && !l.keyAllowed then throw "a block cannot start here"
    let l := l.roll l.cursor.column l.tokens.size .blockMapping
    return { (l.emit .value).skip 1 with keyAllowed := !l.flow }

def node (l : Lexer) (found : Except String (Token × Cursor)) : Except String Lexer := do
  let l ← l.remember
  let (token, cursor) ← found
  return { l.emit token with cursor, keyAllowed := false }

def named (token : String → Token) (c : Cursor) : Except String (Token × Cursor) := do
  let (name, behind) ← Token.readName c
  return (token name, behind)

def quoted (single : Bool) (c : Cursor) : Except String (Token × Cursor) := do
  let (text, behind) ← Scalar.quoted single (c.skip 1) []
  return (.scalar false (String.ofList text), behind)

def blockScalar (l : Lexer) (literal : Bool) : Except String Lexer := do
  let l ← l.forget
  let (text, cursor) ← Scalar.block literal l.indent (l.cursor.skip 1)
  return { l.emit (.scalar false (String.ofList text)) with cursor, keyAllowed := true }

def plain (l : Lexer) : Except String Lexer := do
  let l ← l.remember
  let (text, cursor, broken) ← Scalar.plain l.flow (l.indent + 1).toNat l.cursor [] {}
  return { l.emit (.scalar true (String.ofList text)) with cursor, keyAllowed := broken }

/-- The characters that cannot start a plain scalar by themselves. -/
def isIndicator (c : Char) : Bool := "-?:,[]\x7b\x7d#&*!|>'\"%@`".toList.contains c

def startsPlain (l : Lexer) (char : Char) : Bool :=
  !(isGap char || isIndicator char) || (char = '-' && !l.cursor.gapAt 1) ||
    (!l.flow && (char = '?' || char = ':') && !l.cursor.gapAt 1)

/-- Lexes the token under the cursor. A tab that stands where a key may start is
no token. -/
def token (l : Lexer) (char : Char) : Except String Lexer :=
  let c := l.cursor
  if c.column = 0 && char = '%' then l.margin (Token.readDirective c)
  else if c.atMark '-' then l.margin (.ok (.documentStart, c.skip 3))
  else if c.atMark '.' then l.margin (.ok (.documentEnd, c.skip 3))
  else if char = '[' then l.openFlow .flowSequence
  else if char = '\x7b' then l.openFlow .flowMapping
  else if char = ']' then l.closeFlow .flowSequenceEnd
  else if char = '\x7d' then l.closeFlow .flowMappingEnd
  else if char = ',' then do
    let l ← l.forget
    return { (l.emit .flowEntry).skip 1 with keyAllowed := true }
  else if char = '-' && c.gapAt 1 then l.mark .blockSequence .entry true
  else if char = '?' && (l.flow || c.gapAt 1) then l.mark .blockMapping .key (!l.flow)
  else if char = ':' && (l.flow || c.gapAt 1) then l.colon
  else if char = '*' then l.node (named .reference c)
  else if char = '&' then l.node (named .anchor c)
  else if char = '!' then l.node (Token.readTag l.flow c)
  else if char = '|' && !l.flow then l.blockScalar true
  else if char = '>' && !l.flow then l.blockScalar false
  else if char = '\'' then l.node (quoted true c)
  else if char = '"' then l.node (quoted false c)
  else if l.startsPlain char then l.plain
  else .error "unexpected character"

def run (l : Lexer) : Except String (List Token) := do
  let l' ← l.toToken.dropStale
  let l' := l'.unroll l'.cursor.column
  match l'.cursor.rest.head? with
  | none =>
    let l' ← (l'.unroll (-1)).forget
    return l'.tokens.toList
  | some char =>
    let next ← l'.token char
    if next.cursor.rest.length < l.cursor.rest.length then run next
    else throw "unexpected character"
termination_by l.cursor.rest.length

end Lexer

def Token.ofText (text : String) : Except String (List Token) :=
  if text.toList.all isPrintable then Lexer.run { cursor := { rest := text.toList } }
  else .error "unprintable character"

end Provenance.Yaml
