import Provenance.Json.Value

/-! JSON text, compact and indented. Both write strings in the same way: quotes,
backslashes and control characters are escaped and everything else is itself. -/

namespace Provenance.Json

def hexDigit (n : Nat) : Char := Nat.digitChar n

def escaped (c : Char) : List Char :=
  if c = '"' then ['\\', '"']
  else if c = '\\' then ['\\', '\\']
  else if c = '\n' then ['\\', 'n']
  else if c = '\r' then ['\\', 'r']
  else if c = '\t' then ['\\', 't']
  else if c.toNat = 8 then ['\\', 'b']
  else if c.toNat = 12 then ['\\', 'f']
  else if c.toNat < 32 then
    ['\\', 'u', '0', '0', hexDigit (c.toNat / 16), hexDigit (c.toNat % 16)]
  else [c]

def quoted (text : String) : String :=
  String.ofList ('"' :: text.toList.flatMap escaped ++ ['"'])

mutual

def compact : Json → String
  | .null => "null"
  | .bool true => "true"
  | .bool false => "false"
  | .number n => n.text
  | .string s => quoted s
  | .array items => "[" ++ String.intercalate "," (compactItems items) ++ "]"
  | .object members => "\x7b" ++ String.intercalate "," (compactMembers members) ++ "\x7d"

def compactItems : List Json → List String
  | [] => []
  | item :: rest => item.compact :: compactItems rest

def compactMembers : List (String × Json) → List String
  | [] => []
  | (name, value) :: rest => (quoted name ++ ":" ++ value.compact) :: compactMembers rest

end

/-- A bracketed block with one entry a line, two blanks deeper than `indent`.
An empty block stays on its line. -/
def block (opening closing indent : String) (entries : List String) : String :=
  if entries.isEmpty then opening ++ closing
  else
    let inner := "\n" ++ indent ++ "  "
    opening ++ inner ++ String.intercalate ("," ++ inner) entries ++ "\n" ++ indent ++ closing

mutual

def indented (indent : String) : Json → String
  | .null => "null"
  | .bool true => "true"
  | .bool false => "false"
  | .number n => n.text
  | .string s => quoted s
  | .array items => block "[" "]" indent (indentedItems (indent ++ "  ") items)
  | .object members => block "\x7b" "\x7d" indent (indentedMembers (indent ++ "  ") members)

def indentedItems (indent : String) : List Json → List String
  | [] => []
  | item :: rest => item.indented indent :: indentedItems indent rest

def indentedMembers (indent : String) : List (String × Json) → List String
  | [] => []
  | (name, value) :: rest =>
    (quoted name ++ ": " ++ value.indented indent) :: indentedMembers indent rest

end

def pretty (value : Json) : String := value.indented ""

/-- The text of a value inside a name or message: a string stands for itself,
every other value for its compact text. -/
def bareText : Json → String
  | .string text => text
  | other => other.compact

end Provenance.Json
