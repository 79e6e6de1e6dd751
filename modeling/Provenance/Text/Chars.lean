/-! Cutting and searching text as lists of characters. -/

namespace Provenance.Text

/-- Drops the characters of a class from both ends. -/
def trim (drop : Char → Bool) (text : List Char) : List Char :=
  ((text.dropWhile drop).reverse.dropWhile drop).reverse

/-- The pieces between separators. There is always one more piece than
separators, so the empty text has one empty piece. -/
def split (separator : Char) : List Char → List (List Char)
  | [] => [[]]
  | c :: rest =>
    if c = separator then [] :: split separator rest
    else match split separator rest with
      | [] => [[c]]
      | piece :: pieces => (c :: piece) :: pieces

/-- Whether one text occurs inside another. The empty text occurs everywhere. -/
def occurs (needle : List Char) : List Char → Bool
  | [] => needle.isEmpty
  | c :: rest => needle.isPrefixOf (c :: rest) || occurs needle rest

/-- Drops every leading copy of a two-character mark. -/
def dropLeadingPairs (first second : Char) : List Char → List Char
  | a :: b :: rest =>
    if a = first ∧ b = second then dropLeadingPairs first second rest else a :: b :: rest
  | short => short

/-- Reads an unsigned decimal below `limit`. One leading plus sign and leading
zeros are accepted; anything else beside ASCII digits is not. -/
def natBelow? (limit : Nat) (text : List Char) : Option Nat :=
  let digits := match text with
    | '+' :: rest => rest
    | other => other
  if digits.isEmpty || !digits.all Char.isDigit then none
  else
    let value := digits.foldl (fun n c => 10 * n + (c.toNat - '0'.toNat)) 0
    if value < limit then some value else none

end Provenance.Text
