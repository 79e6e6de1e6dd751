import Provenance.Json.Value

/-! Formal parameters: named values that pass between compute functions, and
how a function uses one. -/

namespace Provenance

inductive ParameterKind where
  | scalar (type : String)
  | file (format : Option String)
  deriving DecidableEq

structure Parameter where
  name : String
  kind : ParameterKind
  deriving DecidableEq

namespace Parameter

/-- A parameter by the name of its type; only files have a format. -/
def ofType (name type : String) (format : Option String) : Parameter :=
  { name, kind := if type = "file" then .file format else .scalar type }

def isFile (p : Parameter) : Bool :=
  match p.kind with
  | .scalar _ => false
  | .file _ => true

def typeName (p : Parameter) : String :=
  match p.kind with
  | .scalar type => type
  | .file _ => "file"

def format? (p : Parameter) : Option String :=
  match p.kind with
  | .scalar _ => none
  | .file format => format

end Parameter

inductive Direction where
  | input
  | output
  deriving DecidableEq

def Direction.name : Direction → String
  | .input => "input"
  | .output => "output"

/-- One use of a parameter by a function. Its value is local to the function. -/
structure Usage where
  parameter : Parameter
  direction : Direction
  localValue : Option String := none
  deriving DecidableEq

namespace Usage

def name (u : Usage) : String := u.parameter.name

/-- Where a file is for the function that uses it. -/
def declaredPath (u : Usage) : String := u.localValue.getD u.name

end Usage

end Provenance
