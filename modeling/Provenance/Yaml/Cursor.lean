/-! A place in a YAML text. Indentation is counted in characters and the reach of
a key in bytes, so a cursor carries both along with what is left to read. -/

namespace Provenance.Yaml

def isBreak (c : Char) : Bool :=
  c = '\n' || c = '\r' || c = '\u0085' || c = '\u2028' || c = '\u2029'

def isBlank (c : Char) : Bool := c = ' ' || c = '\t'

def isGap (c : Char) : Bool := isBlank c || isBreak c

/-- Letters, digits, underscore and hyphen: the characters of anchors, tag
handles and directive names. -/
def isWordChar (c : Char) : Bool := c.isAlphanum || c = '_' || c = '-'

/-- The characters a YAML text may hold. -/
def isPrintable (c : Char) : Bool :=
  let n := c.toNat
  n = 9 || n = 10 || n = 13 || (32 ≤ n && n ≤ 126) || n = 0x85 ||
    (0xA0 ≤ n && n ≤ 0xD7FF) || (0xE000 ≤ n && n ≤ 0xFFFD) ||
    (0x10000 ≤ n && n ≤ 0x10FFFF)

/-- The bytes of a run of characters in UTF-8. -/
def byteLength (run : List Char) : Nat := run.foldl (fun n c => n + c.utf8Size) 0

structure Cursor where
  rest : List Char
  /-- The bytes that lie behind the cursor. -/
  offset : Nat := 0
  line : Nat := 0
  column : Nat := 0

namespace Cursor

def peek? (c : Cursor) (ahead : Nat) : Option Char := c.rest[ahead]?

def sees (c : Cursor) (char : Char) : Bool := c.rest.head? = some char

/-- Whether the character so far ahead is blank, a line break or past the end. -/
def gapAt (c : Cursor) (ahead : Nat) : Bool :=
  match c.peek? ahead with
  | some char => isGap char
  | none => true

/-- Passes characters of one line. -/
def skip (c : Cursor) (count : Nat) : Cursor :=
  { c with
    rest := c.rest.drop count
    offset := c.offset + byteLength (c.rest.take count)
    column := c.column + count }

/-- Passes one line break; a carriage return takes a line feed with it. -/
def newline (c : Cursor) : Cursor :=
  match c.rest with
  | '\r' :: '\n' :: rest => { rest, offset := c.offset + 2, line := c.line + 1 }
  | char :: rest => { rest, offset := c.offset + char.utf8Size, line := c.line + 1 }
  | [] => c

/-- The break under the cursor as it counts in a scalar: a line feed, except
that the Unicode separators stand for themselves. -/
def breakChar (c : Cursor) : List Char :=
  match c.rest.head? with
  | some '\u2028' => ['\u2028']
  | some '\u2029' => ['\u2029']
  | some char => if isBreak char then ['\n'] else []
  | none => []

/-- Passes the characters of a class on one line and returns them. -/
def span (p : Char → Bool) (c : Cursor) : List Char × Cursor :=
  let run := c.rest.takeWhile p
  (run, c.skip run.length)

/-- Whether a line starts with three of a character and then a gap: the mark
of a document's start or end. -/
def atMark (c : Cursor) (char : Char) : Bool :=
  c.column = 0 && c.rest.take 3 = [char, char, char] && c.gapAt 3

def atDocumentMark (c : Cursor) : Bool := c.atMark '-' || c.atMark '.'

theorem length_skip_lt {c : Cursor} {char : Char} {rest : List Char} (h : c.rest = char :: rest)
    (count : Nat) : (c.skip (count + 1)).rest.length < c.rest.length := by
  simp only [skip, h, List.length_drop, List.length_cons]
  omega

theorem length_newline_lt {c : Cursor} {char : Char} {rest : List Char}
    (h : c.rest = char :: rest) : c.newline.rest.length < c.rest.length := by
  unfold newline
  split
  · next pair =>
    simp only [pair, List.length_cons]
    omega
  · next single => simp [single]
  · next none => simp [none] at h

end Cursor

end Provenance.Yaml
