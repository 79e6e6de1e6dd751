import Provenance.CommandLine.Session

/-! The whole program: from arguments to an exit code and two streams of text. -/

namespace Provenance.CommandLine

def usageLines : List String :=
  ["Usage: flowprov <COMMAND> [OPTIONS]",
    "",
    "Commands:",
    "  plan <PLAN> <INPUT>          Build a graph from a flow plan and its input",
    "  tools <MANIFEST>             Infer transfers and build a graph from tools",
    "  validate <DOCUMENT>          Validate a graph document",
    "  compare <ACTUAL> <EXPECTED>  Compare selected parts of two graphs",
    "",
    "Options:",
    "  --config PATH     Build configuration (YAML or JSON)",
    "  --output PATH     Write the result to a file instead of stdout",
    "  --schema PATH     Schema table used by 'validate'",
    "  --parts LIST      Comma-separated parts compared by 'compare'",
    "  --refs LIST       Parts also compared when only referenced",
    "  --flow            Emit the generated flow plan from 'tools'",
    "  --verbose         Enable debug logging",
    "  --help            Show this help message",
    "  --version         Show version information",
    "",
    "Parts: prospective, retrospective, orchestration, metadata, other"]

def usage : String := String.join (usageLines.map (· ++ "\n"))

def version : String := "0.1.0"

def banner : String := "\nflowprov v" ++ version ++ "\nProspective provenance for flow plans\n\n"

structure Outcome where
  code : Nat
  output : String := ""
  errors : String := ""

def errorText (message : String) : String := "\nError: " ++ message ++ "\n"

def run {m : Type → Type} [Monad m] (files : Files m) (arguments : List String) : m Outcome := do
  match Request.ofArguments arguments with
  | .error fault =>
    let errors := "Error: " ++ fault.message ++ "\n\n" ++ errorText fault.message
    return { code := 1, output := usage, errors }
  | .ok .help => return { code := 0, output := usage }
  | .ok .version => return { code := 0, output := "flowprov " ++ version ++ "\n" }
  | .ok (.run command options) =>
    let (result, screen) ← ((Session.runCommand files options command).run).run {}
    let output := String.join screen.output.reverse
    let errors := banner ++ String.join screen.errors.reverse
    match result with
    | .ok () => return { code := 0, output, errors }
    | .error trouble => return { code := 1, output, errors := errors ++ errorText trouble.message }

end Provenance.CommandLine
