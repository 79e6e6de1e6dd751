import Provenance.Json.Value

/-! JSON as written. A source keeps repeated names, and it keeps places that are
well formed but have no value: a number beyond every double, a text with half
a surrogate pair, a container nested too deeply. Whoever ignores a member never
asks for its value, so such a place only matters where it is used. -/

namespace Provenance.Json

inductive Source where
  | unreadable
  | scalar (value : Json)
  | array (items : List Source)
  | object (members : List (Option String × Source))

namespace Source

mutual

def value? : Source → Option Json
  | .unreadable => none
  | .scalar value => some value
  | .array items => (itemValues? items).map .array
  | .object members => (memberValues? members).map ofMembers

def itemValues? : List Source → Option (List Json)
  | [] => some []
  | item :: rest => do return (← item.value?) :: (← itemValues? rest)

def memberValues? : List (Option String × Source) → Option (List (String × Json))
  | [] => some []
  | (name, item) :: rest => do return (← name, ← item.value?) :: (← memberValues? rest)

end

mutual

def ofJson : Json → Source
  | .array items => .array (ofItems items)
  | .object members => .object (ofMembers members)
  | leaf => .scalar leaf

def ofItems : List Json → List Source
  | [] => []
  | item :: rest => ofJson item :: ofItems rest

def ofMembers : List (String × Json) → List (Option String × Source)
  | [] => []
  | (name, value) :: rest => (some name, ofJson value) :: ofMembers rest

end

def isNull : Source → Bool
  | .scalar .null => true
  | _ => false

def text? : Source → Option String
  | .scalar value => value.text?
  | _ => none

def optionalText? : Source → Option (Option String)
  | .scalar .null => some none
  | .scalar (.string text) => some (some text)
  | _ => none

def optionalBool? : Source → Option (Option Bool)
  | .scalar .null => some none
  | .scalar (.bool value) => some (some value)
  | _ => none

/-- The members of an object, all of whose names have to be readable. -/
def named? : Source → Option (List (String × Source))
  | .object members => members.mapM fun (name, value) => name.map (·, value)
  | _ => none

def map? (source : Source) : Option (OrderedMap Json) := do
  let members ← source.named?
  let values ← members.mapM fun (name, value) => value.value?.map (name, ·)
  return OrderedMap.ofList values

end Source

/-- The member of a record under one of its names: none where it is missing, a
failure where it is written twice. -/
def field? (names : List String) (members : List (String × Source)) : Option (Option Source) :=
  match members.filter fun member => names.contains member.1 with
  | [] => some none
  | [member] => some (some member.2)
  | _ => none

end Provenance.Json
