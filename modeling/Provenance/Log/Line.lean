/-! Log lines. What there is to say about a computation is worked out beside it,
from the same values, so the computation itself does not know of the log. -/

namespace Provenance.Log

inductive Level where
  | debug
  | info
  | warning
  | error
  deriving DecidableEq

structure Line where
  level : Level
  text : String

def debug (text : String) : Line := ⟨.debug, text⟩

def info (text : String) : Line := ⟨.info, text⟩

def warning (text : String) : Line := ⟨.warning, text⟩

def error (text : String) : Line := ⟨.error, text⟩

/-- Debug lines are only shown on request; warnings and errors carry a mark. -/
def Line.render? (verbose : Bool) (line : Line) : Option String :=
  match line.level with
  | .debug => if verbose then some line.text else none
  | .info => some line.text
  | .warning => some ("[WARN] " ++ line.text)
  | .error => some ("[ERROR] " ++ line.text)

end Provenance.Log
