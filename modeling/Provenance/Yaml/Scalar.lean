import Provenance.Yaml.Cursor

/-! The text of YAML scalars. Line breaks inside plain and quoted scalars fold:
one break is a blank, and each further one is kept. Block scalars keep their
lines or fold those that are not indented further. -/

namespace Provenance.Yaml.Scalar

/-- What stands between two runs of text: blanks on one line, or line breaks,
of which the first is told apart from the others. -/
structure Gap where
  broken : Bool := false
  blanks : List Char := []
  first : List Char := []
  others : List Char := []

def Gap.text (gap : Gap) : List Char :=
  if !gap.broken then gap.blanks
  else if gap.first = ['\n'] then (if gap.others.isEmpty then [' '] else gap.others)
  else gap.first ++ gap.others

/-- Passes blanks and breaks. In a plain scalar a tab may not stand where a
line's indentation is still short of `indent`. -/
def passGap (indent : Option Nat) (c : Cursor) (gap : Gap) : Except String (Cursor × Gap) :=
  match _start : c.rest with
  | [] => .ok (c, gap)
  | char :: _ =>
    if isBreak char then
      passGap indent c.newline
        (if gap.broken then { gap with others := gap.others ++ c.breakChar }
          else { broken := true, first := c.breakChar })
    else if isBlank char then
      if gap.broken && char = '\t' && indent.any (c.column < ·) then
        .error "a tab stands in the indentation"
      else
        passGap indent (c.skip 1)
          (if gap.broken then gap else { gap with blanks := gap.blanks ++ [char] })
    else .ok (c, gap)
termination_by c.rest.length
decreasing_by
  · exact Cursor.length_newline_lt _start
  · exact Cursor.length_skip_lt _start 0

def isFlowIndicator (c : Char) : Bool :=
  c = ',' || c = '[' || c = ']' || c = '\x7b' || c = '\x7d'

/-- How many characters belong to a run of a plain scalar: up to a gap, a colon
before a gap, or inside brackets a bracket or comma. -/
def plainRun (flow : Bool) (passed : Nat) : List Char → Except String Nat
  | [] => .ok passed
  | c :: rest =>
    let next := rest.head?
    if isGap c then .ok passed
    else if flow && c = ':' && next.any (fun n => isFlowIndicator n || n = '?') then
      .error "unexpected colon in a plain scalar"
    else if (c = ':' && next.all isGap) || (flow && isFlowIndicator c) then .ok passed
    else plainRun flow (passed + 1) rest

/-- Reads the runs of a plain scalar. Returns the text, the cursor behind it
and whether a line break was passed after the last run. -/
def plain (flow : Bool) (indent : Nat) (c : Cursor) (text : List Char) (gap : Gap) :
    Except String (List Char × Cursor × Bool) := do
  if c.atDocumentMark || c.sees '#' then return (text, c, gap.broken)
  let count ← plainRun flow 0 c.rest
  if count = 0 then return (text, c, gap.broken)
  let text := text ++ gap.text ++ c.rest.take count
  let (behind, gap) ← passGap (some indent) (c.skip count) {}
  if behind.rest.length = (c.skip count).rest.length || (!flow && behind.column < indent) then
    return (text, behind, gap.broken)
  if behind.rest.length < c.rest.length then plain flow indent behind text gap
  else .error "plain scalar without progress"
termination_by c.rest.length

def hexValue? (c : Char) : Option Nat :=
  if c.isDigit then some (c.toNat - '0'.toNat)
  else if 'a' ≤ c ∧ c ≤ 'f' then some (c.toNat - 'a'.toNat + 10)
  else if 'A' ≤ c ∧ c ≤ 'F' then some (c.toNat - 'A'.toNat + 10)
  else none

/-- The character of an escape by number, unless it is a surrogate or too great. -/
def codePoint? (count : Nat) (digits : List Char) : Option Char := do
  guard (digits.length = count)
  let code ← digits.foldlM (fun n c => (hexValue? c).map (16 * n + ·)) 0
  if h : code.isValidChar then some (Char.ofNatAux code h) else none

def namedEscape? : Char → Option Char
  | '0' => some '\x00'
  | 'a' => some '\x07'
  | 'b' => some '\x08'
  | 't' => some '\t'
  | '\t' => some '\t'
  | 'n' => some '\n'
  | 'v' => some '\x0b'
  | 'f' => some '\x0c'
  | 'r' => some '\r'
  | 'e' => some '\x1b'
  | ' ' => some ' '
  | '"' => some '"'
  | '/' => some '/'
  | '\\' => some '\\'
  | 'N' => some '\u0085'
  | '_' => some '\u00a0'
  | 'L' => some '\u2028'
  | 'P' => some '\u2029'
  | _ => none

def numberedEscape? : Char → Option Nat
  | 'x' => some 2
  | 'u' => some 4
  | 'U' => some 8
  | _ => none

/-- The character an escape stands for and how long the escape is, given what
follows the backslash. -/
def escape? (rest : List Char) : Option (Char × Nat) := do
  let mark ← rest.head?
  match namedEscape? mark, numberedEscape? mark with
  | some char, _ => return (char, 2)
  | none, some count => return (← codePoint? count ((rest.drop 1).take count), 2 + count)
  | none, none => none

/-- Reads a run of a quoted scalar: up to a gap, the closing quote, or a line
break that is escaped, which the last result reports. -/
def quotedRun (single : Bool) (c : Cursor) (text : List Char) :
    Except String (List Char × Cursor × Bool) :=
  match _start : c.rest with
  | [] => .ok (text, c, false)
  | char :: rest =>
    if isGap char then .ok (text, c, false)
    else if single && char = '\'' && rest.head? = some '\'' then
      quotedRun single (c.skip 2) (text ++ ['\''])
    else if char = (if single then '\'' else '"') then .ok (text, c, false)
    else if !single && char = '\\' then
      if rest.head?.any isBreak then .ok (text, (c.skip 1).newline, true)
      else match escape? rest with
        | some (plain, length) => quotedRun single (c.skip (length - 1 + 1)) (text ++ [plain])
        | none => .error "unknown escape in a quoted scalar"
    else quotedRun single (c.skip 1) (text ++ [char])
termination_by c.rest.length
decreasing_by
  · exact Cursor.length_skip_lt _start 1
  · exact Cursor.length_skip_lt _start _
  · exact Cursor.length_skip_lt _start 0

def quoted (single : Bool) (c : Cursor) (text : List Char) :
    Except String (List Char × Cursor) := do
  if c.atDocumentMark then throw "a document mark stands inside a quoted scalar"
  let (text, behind, escaped) ← quotedRun single c text
  if behind.sees (if single then '\'' else '"') then return (text, behind.skip 1)
  let (behind, gap) ← passGap none behind { broken := escaped }
  if behind.rest.length < c.rest.length then quoted single behind (text ++ gap.text)
  else throw "unterminated quoted scalar"
termination_by c.rest.length

inductive Chomping where
  | clip
  | strip
  | keep
  deriving DecidableEq

structure Header where
  literal : Bool
  chomping : Chomping := .clip
  increment : Option Nat := none

def chomping? (c : Char) : Option Chomping :=
  if c = '+' then some .keep else if c = '-' then some .strip else none

def increment? (c : Char) : Except String (Option Nat) :=
  if c = '0' then .error "a block scalar cannot be indented by zero"
  else .ok (if c.isDigit then some (c.toNat - '0'.toNat) else none)

/-- Reads the two optional signs after the mark of a block scalar, in either
order. -/
def header (literal : Bool) (c : Cursor) : Except String (Header × Cursor) := do
  match c.rest with
  | [] => return ({ literal }, c)
  | a :: rest =>
    match chomping? a with
    | some chomping =>
      match rest with
      | [] => return ({ literal, chomping }, c.skip 1)
      | b :: _ => match ← increment? b with
        | some n => return ({ literal, chomping, increment := some n }, c.skip 2)
        | none => return ({ literal, chomping }, c.skip 1)
    | none =>
      match ← increment? a with
      | none => return ({ literal }, c)
      | some n => match rest.head?.bind chomping? with
        | some chomping => return ({ literal, chomping, increment := some n }, c.skip 2)
        | none => return ({ literal, increment := some n }, c.skip 1)

/-- Passes the indentation of a block scalar's line, to the given depth or as
far as it goes. -/
def passIndent (indent : Option Nat) (c : Cursor) : Cursor :=
  match _start : c.rest with
  | ' ' :: _ =>
    if indent.all (c.column < ·) then passIndent indent (c.skip 1) else c
  | _ => c
termination_by c.rest.length
decreasing_by exact Cursor.length_skip_lt _start 0

/-- Passes empty lines. Returns their breaks and the greatest depth seen. -/
def emptyLines (indent : Option Nat) (c : Cursor) (breaks : List Char) (deepest : Nat) :
    Except String (List Char × Nat × Cursor) :=
  let c' := passIndent indent c
  let deepest := max deepest c'.column
  if c'.sees '\t' && indent.all (c'.column < ·) then .error "a tab stands in the indentation"
  else if c'.rest.head?.any isBreak then
    let next := c'.newline
    if next.rest.length < c.rest.length then
      emptyLines indent next (breaks ++ c'.breakChar) deepest
    else .ok (breaks, deepest, c')
  else .ok (breaks, deepest, c')
termination_by c.rest.length

/-- What a block scalar has read: its text, the break after the last line, and
the breaks of empty lines after that. -/
structure Lines where
  text : List Char := []
  lastBreak : List Char := []
  emptyBreaks : List Char := []
  lastBlank : Bool := false

/-- Adds a line. The break before it folds when neither line starts blank. -/
def Lines.add (lines : Lines) (literal : Bool) (line : List Char) : Lines :=
  let blank := line.head?.any isBlank
  let folded := !literal && lines.lastBreak = ['\n'] && !lines.lastBlank && !blank
  let joint :=
    if folded then (if lines.emptyBreaks.isEmpty then [' '] else lines.emptyBreaks)
    else lines.lastBreak ++ lines.emptyBreaks
  { text := lines.text ++ joint ++ line, lastBlank := blank }

def blockLines (header : Header) (indent : Nat) (c : Cursor) (lines : Lines) :
    Except String (Lines × Cursor) := do
  if c.column ≠ indent || c.rest.isEmpty then return (lines, c)
  let (line, behind) := c.span (!isBreak ·)
  let lines := lines.add header.literal line
  let (emptyBreaks, _, next) ← emptyLines (some indent) behind.newline [] 0
  let lines := { lines with lastBreak := behind.breakChar, emptyBreaks }
  if next.rest.length < c.rest.length then blockLines header indent next lines
  else return (lines, next)
termination_by c.rest.length

/-- Reads a block scalar whose mark has been passed, inside a block at the
given depth. -/
def block (literal : Bool) (outer : Int) (c : Cursor) : Except String (List Char × Cursor) := do
  let (header, c) ← header literal c
  let (_, c) := c.span isBlank
  let c := if c.sees '#' then (c.span (!isBreak ·)).2 else c
  if !c.rest.isEmpty && !c.rest.head?.any isBreak then
    throw "unexpected character after the mark of a block scalar"
  let c := if c.rest.isEmpty then c else c.newline
  let given := header.increment.map fun n => if 0 ≤ outer then outer.toNat + n else n
  let (emptyBreaks, deepest, c) ← emptyLines given c [] 0
  let indent := given.getD (max deepest (max (outer + 1).toNat 1))
  let (lines, c) ← blockLines header indent c { emptyBreaks }
  let tail := match header.chomping with
    | .strip => []
    | .clip => lines.lastBreak
    | .keep => lines.lastBreak ++ lines.emptyBreaks
  return (lines.text ++ tail, c)

end Provenance.Yaml.Scalar
