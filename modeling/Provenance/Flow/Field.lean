import Provenance.Failure
import Provenance.Text.Chars

/-! Fields of a flow plan. A field is a literal, a lookup into the flow input
document or an expression; expressions are refused. A lookup keeps its path
beside the value found there, because provenance links back to the path. -/

namespace Provenance.Flow

def isPathMark (c : Char) : Bool := c = '$' || c = '.'

/-- The segments of a lookup path, without the marks around it. A path of marks
alone has no segments and stands for the whole document. -/
def pathSegments (path : String) : List String :=
  let inner := Text.trim isPathMark path.toList
  if inner.isEmpty then [] else (Text.split '.' inner).map String.ofList

/-- Items are counted in 64 bits. -/
def indexLimit : Nat := 0x10000000000000000

/-- One step into a value: a member by name, an item by number. -/
def child? (data : Json) (segment : String) : Option Json :=
  match data with
  | .object members => Entries.get? segment members
  | .array items => (Text.natBelow? indexLimit segment.toList).bind (items[·]?)
  | _ => none

/-- Follows segments one by one, failing with the first that leads nowhere. -/
def descend (data : Json) : List String → Except String Json
  | [] => .ok data
  | segment :: rest =>
    match child? data segment with
    | some next => descend next rest
    | none => .error segment

def lookup (data : Json) (path : String) : Except Failure Json :=
  match descend data (pathSegments path) with
  | .ok value => .ok value
  | .error segment => .error (.missingInputReference path segment)

inductive Field where
  | literal (value : Json)
  | indirect (path : String) (value : Json)

namespace Field

def value : Field → Json
  | .literal value => value
  | .indirect _ value => value

def path? : Field → Option String
  | .literal _ => none
  | .indirect path _ => some path

/-- The value as it stands in a name. -/
def text (field : Field) : String := field.value.bareText

def toJson : Field → Json
  | .literal value => value
  | .indirect path value => .object [("path", .string path), ("value", value)]

/-- The field under a key in any of its three forms; a literal wins over a
lookup, and a lookup over an expression. -/
def resolve (state : String) (fields : List (String × Json)) (key : String) (input : Json) :
    Except Failure Field :=
  match Entries.get? key fields with
  | some value => .ok (.literal value)
  | none =>
    let lookupKey := key ++ ".$"
    match Entries.get? lookupKey fields with
    | some (.string path) => do return .indirect path (← lookup input path)
    | some found => .error (.malformedState state (.lookupWithoutPath lookupKey found))
    | none =>
      if (Entries.get? (key ++ ".=") fields).isSome then .error (.unsupportedExpressionForm key)
      else .error (.missingField key)

end Field

end Provenance.Flow
