import Provenance.Json.Printer

/-! Why a flow has no trustworthy provenance. Every failure names the place that
is at fault, and its message is made from the cause alone. -/

namespace Provenance

/-- What is wrong inside a state of a flow plan. -/
inductive StateFault where
  | lookupWithoutPath (key : String) (found : Json)
  | listExpected (key : String) (found : Json)
  | objectsExpected (key : String)

namespace StateFault

def message : StateFault → String
  | .lookupWithoutPath key found =>
    let text := found.compact
    s!"'{key}' must hold a lookup path, found {text}"
  | .listExpected key found =>
    let text := found.compact
    s!"'{key}' must be a list, found {text}"
  | .objectsExpected key => s!"entries of '{key}' must be objects"

end StateFault

/-- What keeps a value from being a graph document. -/
inductive DocumentFault where
  | contextNotText
  | graphNotList
  | nodeNotObject (index : Nat)
  | nodeWithoutId (index : Nat)
  | unidentified (node : Json)
  | typeNotText (node : String) (entry : Json)
  | untyped (node : String)
  | notPlain (node key : String)
  | unknownNode (node key : String)

namespace DocumentFault

def message : DocumentFault → String
  | .contextNotText => "'@context' must be a string"
  | .graphNotList => "'@graph' must be a list"
  | .nodeNotObject index => s!"@graph[{index}] is not an object"
  | .nodeWithoutId index => s!"@graph[{index}] has no string '@id'"
  | .unidentified node =>
    let text := node.compact
    s!"node without string '@id': {text}"
  | .typeNotText node entry =>
    let text := entry.compact
    s!"node '{node}' has a non-string '@type' entry: {text}"
  | .untyped node => s!"node '{node}' has no '@type'"
  | .notPlain node key => s!"node '{node}': key '{key}' must hold a plain value"
  | .unknownNode node key => s!"cannot set '{key}' on unknown node '{node}'"

end DocumentFault

/-- How an actual value differs from an expected one. -/
inductive Mismatch where
  | missing (key : String)
  | objectExpected (actual : Json)
  | unequal (key : String) (expected actual : Json)
  | itemWithoutId (item : Json)

namespace Mismatch

def message : Mismatch → String
  | .missing key => s!"Key {key} not in actual"
  | .objectExpected actual =>
    let text := actual.compact
    s!"Expected an object, found: {text}"
  | .unequal key expected actual =>
    let wanted := expected.compact
    let found := actual.compact
    s!"Value {key}: {wanted} does not match: {found}"
  | .itemWithoutId item =>
    let text := item.compact
    s!"Item without '@id': {text}"

end Mismatch

/-- The two ends of a transfer. -/
inductive TransferEnd where
  | source
  | destination
  deriving DecidableEq

def TransferEnd.name : TransferEnd → String
  | .source => "source"
  | .destination => "destination"

/-- Why a file cannot be read or written. -/
inductive FileFault where
  | missing
  | taken
  | notFolder
  | isFolder
  | other (detail : String)

namespace FileFault

def message : FileFault → String
  | .missing => "No such file or directory (os error 2)"
  | .taken => "File exists (os error 17)"
  | .notFolder => "Not a directory (os error 20)"
  | .isFolder => "Is a directory (os error 21)"
  | .other detail => detail

end FileFault

inductive Failure where
  | cycleDetected (state : String)
  | unknownState (state referencedBy : String)
  | unknownActionType (state action : String)
  | malformedState (state : String) (fault : StateFault)
  | missingInputReference (path segment : String)
  | unsupportedExpressionForm (key : String)
  | missingField (key : String)
  | duplicateFunctionName (function : String)
  | duplicateParameterName (name : String)
  | unknownParameter (function parameter : String)
  | multipleProducers (parameter first second : String)
  | unattributedTransfer (state : String) (side : TransferEnd)
  | graphIdCollision (id : String)
  | malformedDocument (fault : DocumentFault)
  | schemaTypeUnknown (node type : String)
  | missingRequiredKey (node key : String)
  | disallowedKey (node key : String)
  | invalidReferenceShape (node key : String)
  | danglingReference (node key target : String)
  | contextMismatch (actual expected : Json)
  | comparisonFailed (path : List String) (mismatch : Mismatch)
  | inaccessibleFile (fault : FileFault)
  | undecodableJson (detail : String)
  | undecodableYaml (detail : String)

namespace Failure

def joinPath (path : List String) : String := String.intercalate " | " path

def message : Failure → String
  | .cycleDetected state => s!"Loop detected in flow plan at state '{state}'"
  | .unknownState state referencedBy =>
    s!"State '{state}' not found in flow plan (referenced from '{referencedBy}')"
  | .unknownActionType state action => s!"State '{state}' has unknown action type '{action}'"
  | .malformedState state fault =>
    let cause := fault.message
    s!"State '{state}' is malformed: {cause}"
  | .missingInputReference path segment =>
    s!"Input reference '{path}' cannot be resolved: segment '{segment}' is missing"
  | .unsupportedExpressionForm key =>
    s!"Field '{key}' uses an expression form, which is not evaluated"
  | .missingField key => s!"Field '{key}' is missing (no literal, lookup or expression form)"
  | .duplicateFunctionName function =>
    s!"Function name '{function}' is declared by more than one tool"
  | .duplicateParameterName name => s!"Formal parameter '{name}' is declared more than once"
  | .unknownParameter function parameter =>
    s!"Function '{function}' uses undeclared formal parameter '{parameter}'"
  | .multipleProducers parameter first second =>
    s!"Formal parameter '{parameter}' is produced by both '{first}' and '{second}'"
  | .unattributedTransfer state side =>
    let name := side.name
    s!"Transfer '{state}' has no compute step on its {name} side"
  | .graphIdCollision id => s!"Node id '{id}' already exists with different content"
  | .malformedDocument fault =>
    let cause := fault.message
    s!"Malformed graph document: {cause}"
  | .schemaTypeUnknown node type => s!"Node '{node}': type '{type}' is not declared in the schema"
  | .missingRequiredKey node key => s!"Node '{node}': required key '{key}' is missing"
  | .disallowedKey node key => s!"Node '{node}': key '{key}' is not allowed for its types"
  | .invalidReferenceShape node key =>
    s!"Node '{node}': key '{key}' must hold a reference or list of references"
  | .danglingReference node key target =>
    s!"Node '{node}': key '{key}' references unknown node '{target}'"
  | .contextMismatch actual expected =>
    let found := actual.compact
    let wanted := expected.compact
    s!"Contexts do not match: '{found}' != '{wanted}'"
  | .comparisonFailed path mismatch =>
    let place := joinPath path
    let cause := mismatch.message
    s!"Path: {place}\n{cause}"
  | .inaccessibleFile fault =>
    let cause := fault.message
    s!"IO error: {cause}"
  | .undecodableJson detail => s!"JSON error: {detail}"
  | .undecodableYaml detail => s!"YAML error: {detail}"

end Failure

end Provenance
