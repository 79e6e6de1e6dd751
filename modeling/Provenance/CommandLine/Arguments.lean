import Provenance.Comparison.Category

/-! Command-line arguments. Options may stand anywhere; an option with a value
takes the next argument, whatever that looks like. -/

namespace Provenance.CommandLine

inductive Command where
  | plan (plan input : String)
  | tools (manifest : String)
  | validate (document : String)
  | compare (actual expected : String)
  deriving DecidableEq

structure Options where
  positional : List String := []
  config : Option String := none
  output : Option String := none
  schema : Option String := none
  parts : List Category := []
  references : List Category := []
  writeFlow : Bool := false
  verbose : Bool := false
  deriving DecidableEq

inductive ArgumentFault where
  | unknownOption (option : String)
  | missingValue (option : String)
  | unknownPart (name : String)
  | noCommand
  | unknownCommand (name : String)
  | wrongCount (command : String)
  | partsRequired

def ArgumentFault.message : ArgumentFault → String
  | .unknownOption option => s!"Unknown option: {option}"
  | .missingValue option => s!"{option} requires an argument"
  | .unknownPart name => s!"Unknown crate part: '{name}'"
  | .noCommand => "No command given"
  | .unknownCommand name => s!"Unknown command: {name}"
  | .wrongCount command => s!"Wrong number of arguments for '{command}'"
  | .partsRequired => "compare requires --parts"

/-- The categories of a list between commas. Blank entries do not count. -/
def categories (text : String) : Except ArgumentFault (List Category) :=
  let entries := (Text.split ',' text.toList).filter fun entry => !entry.all Text.isWhiteSpace
  entries.mapM fun entry => (Category.ofName (String.ofList entry)).mapError .unknownPart

inductive ValuedOption where
  | config
  | output
  | schema
  | parts
  | references
  deriving DecidableEq

def ValuedOption.ofArgument? (argument : String) : Option ValuedOption :=
  Entries.get? argument [("--config", .config), ("--output", .output), ("--schema", .schema),
    ("--parts", .parts), ("--refs", .references)]

namespace Options

/-- Gives an option its value. A later value takes the place of an earlier one. -/
def set (o : Options) (option : ValuedOption) (value : String) : Except ArgumentFault Options :=
  match option with
  | .config => .ok { o with config := some value }
  | .output => .ok { o with output := some value }
  | .schema => .ok { o with schema := some value }
  | .parts => do return { o with parts := ← categories value }
  | .references => do return { o with references := ← categories value }

inductive Reading where
  | options (options : Options)
  | help
  | version

def isHelp (argument : String) : Bool := argument = "--help" || argument = "-h"

def isVersion (argument : String) : Bool := argument = "--version" || argument = "-V"

def isVerbose (argument : String) : Bool := argument = "--verbose" || argument = "-v"

/-- Reads arguments from left to right. A request for help or the version ends
reading, and so does the first fault. -/
def read (o : Options) : List String → Except ArgumentFault Reading
  | [] => .ok (.options o)
  | argument :: rest =>
    if isHelp argument then .ok .help
    else if isVersion argument then .ok .version
    else if isVerbose argument then read { o with verbose := true } rest
    else if argument = "--flow" then read { o with writeFlow := true } rest
    else
      match ValuedOption.ofArgument? argument with
      | some option =>
        match rest with
        | [] => .error (.missingValue argument)
        | value :: rest => do read (← o.set option value) rest
      | none =>
        if argument.toList.head? = some '-' then .error (.unknownOption argument)
        else read { o with positional := o.positional ++ [argument] } rest

def command (o : Options) : Except ArgumentFault Command :=
  match o.positional with
  | [] => .error .noCommand
  | ["plan", plan, input] => .ok (.plan plan input)
  | ["tools", manifest] => .ok (.tools manifest)
  | ["validate", document] => .ok (.validate document)
  | ["compare", actual, expected] =>
    if o.parts.isEmpty then .error .partsRequired else .ok (.compare actual expected)
  | name :: _ =>
    if ["plan", "tools", "validate", "compare"].contains name then .error (.wrongCount name)
    else .error (.unknownCommand name)

end Options

inductive Request where
  | help
  | version
  | run (command : Command) (options : Options)

def Request.ofArguments (arguments : List String) : Except ArgumentFault Request := do
  match ← Options.read {} arguments with
  | .help => return .help
  | .version => return .version
  | .options options => return .run (← options.command) options

end Provenance.CommandLine
