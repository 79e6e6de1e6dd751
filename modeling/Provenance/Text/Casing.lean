import Provenance.Text.CaseTable

/-! White space and lower case for every character. Two capitals need more than
a table: a dotted I becomes two characters, and a sigma at the end of a word has
a small letter of its own. -/

namespace Provenance.Text

def isWhiteSpace (c : Char) : Bool :=
  let n := c.toNat
  (9 ≤ n && n ≤ 13) || n = 32 || n = 0x85 || n = 0xA0 || n = 0x1680 ||
    (0x2000 ≤ n && n ≤ 0x200A) || n = 0x2028 || n = 0x2029 || n = 0x202F || n = 0x205F ||
    n = 0x3000

def inRanges (ranges : List (Nat × Nat)) (c : Char) : Bool :=
  ranges.any fun (first, last) => first ≤ c.toNat && c.toNat ≤ last

def isCased (c : Char) : Bool := inRanges casedRanges c

def isCaseIgnorable (c : Char) : Bool := inRanges ignorableRanges c

def smallLetter (c : Char) : Char :=
  let n := c.toNat
  let holds := fun (first, last, step, _) => first ≤ n && n ≤ last && (n - first) % step = 0
  match lowerRuns.find? holds with
  | some (_, _, _, distance) => Char.ofNat (n + distance).toNat
  | none => c

/-- Whether the nearest character that counts is a cased one. -/
def meetsCased (text : List Char) : Bool := (text.dropWhile isCaseIgnorable).head?.any isCased

/-- Lower case of a text, given the characters before it, nearest first. -/
def lowercaseAfter (before : List Char) : List Char → List Char
  | [] => []
  | c :: rest =>
    let small :=
      if c = 'İ' then ['i', '\u0307']
      else if c = 'Σ' then [if meetsCased before && !meetsCased rest then 'ς' else 'σ']
      else [smallLetter c]
    small ++ lowercaseAfter (c :: before) rest

def lowercase (text : List Char) : List Char := lowercaseAfter [] text

end Provenance.Text
