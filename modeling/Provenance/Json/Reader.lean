import Provenance.Json.Source

/-! Reading JSON text. Each step hands on the rest of the text together with the
fact that it has not grown, and every container and every comma uses up a
character, which is why reading ends. -/

namespace Provenance.Json.Reader

/-- What a step reads from a text, and what it leaves of it. -/
abbrev Step (α : Type) (text : List Char) :=
  Except String { read : α × List Char // read.2.length ≤ text.length }

/-- How many containers may be open at once. -/
def depthLimit : Nat := 127

def isBlank (c : Char) : Bool := c = ' ' || c = '\n' || c = '\t' || c = '\r'

def skipBlanks (text : List Char) : List Char := text.dropWhile isBlank

private theorem length_dropWhile_le (p : Char → Bool) (text : List Char) :
    (text.dropWhile p).length ≤ text.length :=
  (List.dropWhile_suffix p).length_le

private theorem length_skipBlanks_le (text : List Char) : (skipBlanks text).length ≤ text.length :=
  length_dropWhile_le _ _

def isNumberChar (c : Char) : Bool :=
  c.isDigit || c = '-' || c = '+' || c = '.' || c = 'e' || c = 'E'

/-- The parts of a run of number characters, if they make a number: no leading
zeros, digits on both sides of the point and after the exponent mark. -/
def literal? (run : List Char) : Option Number.Literal := do
  let (negative, unsigned) := match run with
    | '-' :: rest => (true, rest)
    | other => (false, other)
  let whole := unsigned.takeWhile Char.isDigit
  guard (!whole.isEmpty && (whole.length == 1 || whole.head? != some '0'))
  let (fraction, tail) := match unsigned.dropWhile Char.isDigit with
    | '.' :: rest => (some (rest.takeWhile Char.isDigit), rest.dropWhile Char.isDigit)
    | other => (none, other)
  guard (fraction != some [])
  match tail with
  | [] => return ⟨negative, whole, fraction, none⟩
  | mark :: rest =>
    guard (mark = 'e' || mark = 'E')
    let (down, digits) := match rest with
      | '-' :: digits => (true, digits)
      | '+' :: digits => (false, digits)
      | digits => (false, digits)
    guard (!digits.isEmpty && digits.all Char.isDigit)
    return ⟨negative, whole, fraction, some (down, digits)⟩

def number (text : List Char) : Step Source text :=
  match literal? (text.takeWhile isNumberChar) with
  | none => .error "invalid number"
  | some literal =>
    let source := match Number.ofLiteral? literal with
      | some n => Source.scalar (.number n)
      | none => .unreadable
    .ok ⟨(source, text.dropWhile isNumberChar), length_dropWhile_le _ _⟩

/-- A piece of a string: a character, or a UTF-16 unit written as an escape. -/
inductive Piece where
  | char (c : Char)
  | unit (code : Nat)

/-- How far the closing quote is. An escaped quote does not close. -/
def closing? (passed : Nat) : List Char → Option Nat
  | [] => none
  | '"' :: _ => some passed
  | '\\' :: _ :: rest => closing? (passed + 2) rest
  | _ :: rest => closing? (passed + 1) rest

def hexValue? (c : Char) : Option Nat :=
  if c.isDigit then some (c.toNat - '0'.toNat)
  else if 'a' ≤ c ∧ c ≤ 'f' then some (c.toNat - 'a'.toNat + 10)
  else if 'A' ≤ c ∧ c ≤ 'F' then some (c.toNat - 'A'.toNat + 10)
  else none

def unit? (digits : List Char) : Option Nat :=
  digits.foldlM (fun n c => (hexValue? c).map (16 * n + ·)) 0

def escape? (c : Char) : Option Char :=
  if c = '"' || c = '\\' || c = '/' then some c
  else if c = 'b' then some '\x08'
  else if c = 'f' then some '\x0c'
  else if c = 'n' then some '\n'
  else if c = 'r' then some '\r'
  else if c = 't' then some '\t'
  else none

/-- The pieces of a string's inside, latest first. -/
def pieces? (found : List Piece) : List Char → Option (List Piece)
  | [] => some found
  | '\\' :: 'u' :: a :: b :: c :: d :: rest =>
    match unit? [a, b, c, d] with
    | some code => pieces? (.unit code :: found) rest
    | none => none
  | '\\' :: c :: rest =>
    match escape? c with
    | some plain => pieces? (.char plain :: found) rest
    | none => none
  | c :: rest => if c.toNat < 32 then none else pieces? (.char c :: found) rest

def isHighSurrogate (code : Nat) : Bool := 0xD800 ≤ code && code ≤ 0xDBFF

def isLowSurrogate (code : Nat) : Bool := 0xDC00 ≤ code && code ≤ 0xDFFF

/-- Joins surrogate pairs, from the latest piece to the first. A surrogate
without its partner is no character. -/
def assemble? (text : List Char) : List Piece → Option (List Char)
  | [] => some text
  | .char c :: rest => assemble? (c :: text) rest
  | .unit low :: .unit high :: rest =>
    if isLowSurrogate low then
      if isHighSurrogate high then
        assemble? (Char.ofNat (0x10000 + (high - 0xD800) * 0x400 + (low - 0xDC00)) :: text) rest
      else none
    else if isHighSurrogate low then none
    else assemble? (Char.ofNat low :: text) (.unit high :: rest)
  | .unit code :: rest =>
    if isLowSurrogate code || isHighSurrogate code then none
    else assemble? (Char.ofNat code :: text) rest

/-- Reads a string whose opening quote has been passed. The text is none where
the string is well formed but not made of characters. -/
def string (text : List Char) : Step (Option String) text :=
  match closing? 0 text with
  | none => .error "unterminated string"
  | some length =>
    match pieces? [] (text.take length) with
    | none => .error "invalid character or escape in a string"
    | some pieces =>
      .ok ⟨((assemble? [] pieces).map String.ofList, text.drop (length + 1)), by simp⟩

def word (letters : List Char) (value : Json) (text : List Char) : Step Source text :=
  if letters.isPrefixOf text then
    .ok ⟨(.scalar value, text.drop letters.length), by simp⟩
  else .error "unexpected character"

mutual

def value (room : Nat) (text : List Char) : Step Source text :=
  match text with
  | '[' :: rest => do
    let ⟨(items, after), shorter⟩ ← array (room - 1) rest
    return ⟨(if room = 0 then .unreadable else .array items, after), Nat.le_succ_of_le shorter⟩
  | '\x7b' :: rest => do
    let ⟨(members, after), shorter⟩ ← object (room - 1) rest
    return ⟨(if room = 0 then .unreadable else .object members, after), Nat.le_succ_of_le shorter⟩
  | '"' :: rest => do
    let ⟨(found, after), shorter⟩ ← string rest
    let source := match found with
      | some text => Source.scalar (.string text)
      | none => .unreadable
    return ⟨(source, after), Nat.le_succ_of_le shorter⟩
  | 'n' :: rest => word ['n', 'u', 'l', 'l'] .null ('n' :: rest)
  | 't' :: rest => word ['t', 'r', 'u', 'e'] (.bool true) ('t' :: rest)
  | 'f' :: rest => word ['f', 'a', 'l', 's', 'e'] (.bool false) ('f' :: rest)
  | other => number other
termination_by (text.length, 0)

def array (room : Nat) (text : List Char) : Step (List Source) text :=
  have bound := length_skipBlanks_le text
  match start : skipBlanks text with
  | ']' :: rest => .ok ⟨([], rest), by rw [start] at bound; simp at *; omega⟩
  | other => do
    let ⟨(found, after), shorter⟩ ← items room other
    return ⟨(found, after), by rw [start] at bound; simp at *; omega⟩
termination_by (text.length, 2)
decreasing_by
  have := length_skipBlanks_le text
  rw [start] at this
  rcases Nat.lt_or_eq_of_le this with less | same
  · exact Prod.Lex.left _ _ less
  · rw [same]; exact Prod.Lex.right _ (by omega)

def items (room : Nat) (text : List Char) : Step (List Source) text := do
  let ⟨(item, after), shorter⟩ ← value room text
  have bound := length_skipBlanks_le after
  match start : skipBlanks after with
  | ',' :: rest =>
    have bound' := length_skipBlanks_le rest
    let ⟨(others, tail), shorter'⟩ ← items room (skipBlanks rest)
    return ⟨(item :: others, tail), by rw [start] at bound; simp at *; omega⟩
  | ']' :: rest => return ⟨([item], rest), by rw [start] at bound; simp at *; omega⟩
  | _ => .error "expected a comma or a closing bracket"
termination_by (text.length, 1)
decreasing_by
  · exact Prod.Lex.right _ (by omega)
  · rw [start] at bound
    simp at *
    exact Prod.Lex.left _ _ (by omega)

def object (room : Nat) (text : List Char) : Step (List (Option String × Source)) text :=
  have bound := length_skipBlanks_le text
  match start : skipBlanks text with
  | '\x7d' :: rest => .ok ⟨([], rest), by rw [start] at bound; simp at *; omega⟩
  | other => do
    let ⟨(found, after), shorter⟩ ← members room other
    return ⟨(found, after), by rw [start] at bound; simp at *; omega⟩
termination_by (text.length, 2)
decreasing_by
  have := length_skipBlanks_le text
  rw [start] at this
  rcases Nat.lt_or_eq_of_le this with less | same
  · exact Prod.Lex.left _ _ less
  · rw [same]; exact Prod.Lex.right _ (by omega)

def members (room : Nat) (text : List Char) : Step (List (Option String × Source)) text :=
  match text with
  | '"' :: opened => do
    let ⟨(name, named), shorter⟩ ← string opened
    have bound := length_skipBlanks_le named
    match start : skipBlanks named with
    | ':' :: colon =>
      have bound' := length_skipBlanks_le colon
      let ⟨(item, after), shorter'⟩ ← value room (skipBlanks colon)
      have bound'' := length_skipBlanks_le after
      match next : skipBlanks after with
      | ',' :: rest =>
        have bound''' := length_skipBlanks_le rest
        let ⟨(others, tail), shorter''⟩ ← members room (skipBlanks rest)
        return ⟨((name, item) :: others, tail), by
          rw [start] at bound; rw [next] at bound''; simp at *; omega⟩
      | '\x7d' :: rest => return ⟨([(name, item)], rest), by
          rw [start] at bound; rw [next] at bound''; simp at *; omega⟩
      | _ => .error "expected a comma or a closing brace"
    | _ => .error "expected a colon"
  | _ => .error "expected a name"
termination_by (text.length, 1)
decreasing_by
  · rw [start] at bound
    simp at *
    exact Prod.Lex.left _ _ (by omega)
  · rw [start] at bound
    rw [next] at bound''
    simp at *
    exact Prod.Lex.left _ _ (by omega)

end

end Reader

def Source.ofText (text : String) : Except String Source := do
  let ⟨(source, after), _⟩ ← Reader.value Reader.depthLimit (Reader.skipBlanks text.toList)
  if (Reader.skipBlanks after).isEmpty then return source
  else .error "trailing characters"

def ofText (text : String) : Except String Json := do
  match (← Source.ofText text).value? with
  | some value => return value
  | none => .error "a number or a string without a value, or too deep nesting"

end Provenance.Json
