import Provenance.Json.Number
import Provenance.OrderedMap

/-! JSON values with members in the order they were written, and the equality
under which that order does not matter. -/

namespace Provenance

inductive Json where
  | null
  | bool (value : Bool)
  | number (value : Json.Number)
  | string (text : String)
  | array (items : List Json)
  | object (members : List (String × Json))

namespace Json

instance : Inhabited Json := ⟨.null⟩

/-- An object written member by member: a repeated name keeps its first place
and takes its last value. -/
def ofMembers (members : List (String × Json)) : Json :=
  .object (Entries.collect members)

def nat (n : Nat) : Json := .number (.whole n)

def texts (texts : List String) : Json := .array (texts.map .string)

def textOrNull (text : Option String) : Json := text.elim .null .string

/-- A member that is left out where there is no value. -/
def present (name : String) (value : Option Json) : List (String × Json) :=
  value.toList.map (name, ·)

def text? : Json → Option String
  | .string text => some text
  | _ => none

def items? : Json → Option (List Json)
  | .array items => some items
  | _ => none

def members? : Json → Option (List (String × Json))
  | .object members => some members
  | _ => none

def isObject (value : Json) : Bool := value.members?.isSome

/-- The member of an object under a name. Other values have no members. -/
def get? (value : Json) (name : String) : Option Json :=
  match value with
  | .object members => Entries.get? name members
  | _ => none

def textAt? (value : Json) (name : String) : Option String :=
  (value.get? name).bind text?

mutual

/-- Equality of values. Arrays agree item by item, objects name by name. -/
def agrees : Json → Json → Bool
  | .null, .null => true
  | .bool a, .bool b => a == b
  | .number a, .number b => a.agrees b
  | .string a, .string b => a == b
  | .array a, .array b => itemsAgree a b
  | .object a, .object b => a.length == b.length && membersAgree a b
  | _, _ => false

def itemsAgree : List Json → List Json → Bool
  | [], [] => true
  | a :: as, b :: bs => agrees a b && itemsAgree as bs
  | _, _ => false

def membersAgree : List (String × Json) → List (String × Json) → Bool
  | [], _ => true
  | (name, a) :: rest, others =>
    (match Entries.get? name others with
      | some b => agrees a b
      | none => false) && membersAgree rest others

end

mutual

/-- Every object inside the value has distinct names. Values read from text
and values written by this library do. -/
def Distinct : Json → Prop
  | .array items => ItemsDistinct items
  | .object members => (members.map Prod.fst).Nodup ∧ MembersDistinct members
  | _ => True

def ItemsDistinct : List Json → Prop
  | [] => True
  | item :: rest => item.Distinct ∧ ItemsDistinct rest

def MembersDistinct : List (String × Json) → Prop
  | [] => True
  | (_, value) :: rest => value.Distinct ∧ MembersDistinct rest

end

end Json

end Provenance
