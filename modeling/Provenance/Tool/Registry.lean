import Provenance.FirstRepeat
import Provenance.Flow.Field
import Provenance.Tool.Tool

/-! Registries: the formal parameters of a flow together with its tools, where
every parameter that a function uses is declared, and declared once. -/

namespace Provenance

/-- The parameters that functions use, each with the name of its function. -/
def Tool.usages (tools : List Tool) : List (String × Usage) :=
  (Tool.declaredFunctions tools).flatMap fun (function, use) =>
    use.usages.map fun usage => (function, usage)

structure Registry where
  parameters : List Parameter
  tools : List Tool
  distinct : (parameters.map Parameter.name).Nodup
  declared : ∀ use ∈ Tool.usages tools, use.2.name ∈ parameters.map Parameter.name

structure Summary where
  name : String
  type : String
  format : Option String
  input : List String
  output : List String
  deriving DecidableEq

namespace Registry

def create (parameters : List Parameter) (tools : List Tool) : Except Failure Registry :=
  let names := parameters.map Parameter.name
  match repeated : firstRepeat? [] names with
  | some name => .error (.duplicateParameterName name)
  | none =>
    match missing : (Tool.usages tools).find? fun use => !names.contains use.2.name with
    | some (function, usage) => .error (.unknownParameter function usage.name)
    | none =>
      .ok { parameters, tools
            distinct := (firstRepeat?_eq_none_iff.1 repeated).1
            declared := by simpa [names] using missing }

def parameter? (r : Registry) (name : String) : Option Parameter :=
  r.parameters.find? fun parameter => parameter.name = name

def provenanceTools (r : Registry) : List ProvenanceTool := r.tools.filterMap Tool.provenance?

def checkInput (tool : ProvenanceTool) (input : Json) : Except Failure Unit :=
  tool.required.forM fun name => do
    let _ ← Flow.lookup input ("$.input." ++ name)

/-- The functions among several that use a parameter in one direction. -/
def users (functions : List (String × FunctionUse)) (direction : Direction) (parameter : String) :
    List String :=
  (functions.filter fun function => function.2.uses direction parameter).map Prod.fst

def summary (functions : List (String × FunctionUse)) (parameter : Parameter) : Summary :=
  { name := parameter.name, type := parameter.typeName, format := parameter.format?
    input := users functions .input parameter.name
    output := users functions .output parameter.name }

/-- Every parameter that some function uses, in the order of first use. Function
names have to be distinct, because summaries know functions by name alone. -/
def summaries (r : Registry) : Except Failure (List Summary) :=
  let functions := Tool.declaredFunctions r.tools
  match firstRepeat? [] (functions.map Prod.fst) with
  | some function => .error (.duplicateFunctionName function)
  | none =>
    let used := ((Tool.usages r.tools).map fun use => use.2.name).eraseDups
    .ok (used.filterMap fun name => (r.parameter? name).map (summary functions))

end Registry

end Provenance
