import Provenance.Tool.Parameter

/-! Tools: named compute capabilities. A provenance tool sits on a storage
endpoint and declares how its functions use parameters; a closed tool only
takes part in the order of a flow. -/

namespace Provenance

structure FunctionUse where
  /-- Argument names of the function itself. -/
  signature : List String := []
  args : List Usage := []
  returns : List Usage := []
  deriving DecidableEq

def FunctionUse.usages (f : FunctionUse) : List Usage := f.args ++ f.returns

def FunctionUse.uses (f : FunctionUse) (direction : Direction) (parameter : String) : Bool :=
  f.usages.any fun usage => usage.direction = direction && usage.name = parameter

structure ProvenanceTool where
  name : String
  endpoint : String
  /-- Inputs needed beside those that the signatures name. -/
  requiredInputs : List String := []
  functions : OrderedMap FunctionUse := {}

/-- A file that a function uses, located on a storage endpoint. -/
structure FileUsage where
  parameter : String
  tool : String
  function : String
  endpoint : String
  declaredPath : String
  localizedPath : String
  deriving DecidableEq

namespace ProvenanceTool

/-- A path below the tool and the function, so that functions on one endpoint
keep their files apart. -/
def localize (t : ProvenanceTool) (function path : String) : String :=
  t.name ++ "/" ++ function ++ "/" ++ path

def fileUsage (t : ProvenanceTool) (function : String) (usage : Usage) : FileUsage :=
  { parameter := usage.name, tool := t.name, function, endpoint := t.endpoint
    declaredPath := usage.declaredPath
    localizedPath := t.localize function usage.declaredPath }

/-- The files the functions use in one direction, arguments before results. -/
def fileUsages (t : ProvenanceTool) (direction : Direction) : List FileUsage :=
  t.functions.entries.flatMap fun (function, use) =>
    (use.usages.filter fun usage => usage.direction = direction && usage.parameter.isFile).map
      (t.fileUsage function)

def fileInputs (t : ProvenanceTool) : List FileUsage := t.fileUsages .input

def fileOutputs (t : ProvenanceTool) : List FileUsage := t.fileUsages .output

/-- What the flow input has to hold for the tool: its own required inputs, then
every signature argument under its function. -/
def required (t : ProvenanceTool) : List String :=
  let qualified := t.functions.entries.flatMap fun (function, use) =>
    use.signature.map fun argument => function ++ "." ++ argument
  (t.requiredInputs ++ qualified).eraseDups

end ProvenanceTool

inductive Tool where
  | provenance (tool : ProvenanceTool)
  | closed (name : String) (functions : List String)

namespace Tool

def name : Tool → String
  | .provenance tool => tool.name
  | .closed name _ => name

def functionNames : Tool → List String
  | .provenance tool => tool.functions.keys
  | .closed _ functions => functions

def provenance? : Tool → Option ProvenanceTool
  | .provenance tool => some tool
  | .closed _ _ => none

/-- The functions that declare their parameters, over several tools in order. -/
def declaredFunctions (tools : List Tool) : List (String × FunctionUse) :=
  (tools.filterMap provenance?).flatMap fun tool => tool.functions.entries

end Tool

end Provenance
