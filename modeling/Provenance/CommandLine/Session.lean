import Provenance.CommandLine.Arguments
import Provenance.Flow.Encoding
import Provenance.Log.Check
import Provenance.Log.Graph

/-! A run of the program, for any way to get at files. Documents go to the
output; the banner, the log and the final error go to the error stream. -/

namespace Provenance.CommandLine

structure Files (m : Type → Type) where
  read : String → m (Except FileFault String)
  /-- Writes a file, making the folders above it. -/
  write : String → String → m (Except FileFault Unit)

structure Screen where
  output : List String := []
  errors : List String := []

inductive Trouble where
  | failure (failure : Failure)
  | file (fault : FileFault)

def Trouble.message : Trouble → String
  | .failure cause => cause.message
  | .file fault => fault.message

/-- A running session. What it has written stays written when it fails. -/
abbrev Session (m : Type → Type) := ExceptT Trouble (StateT Screen m)

namespace Session

variable {m : Type → Type} [Monad m]

def print (text : String) : Session m Unit :=
  modify fun screen => { screen with output := text :: screen.output }

def log (options : Options) (lines : List Log.Line) : Session m Unit :=
  modify fun screen =>
    let shown := lines.filterMap (Log.Line.render? options.verbose)
    { screen with errors := shown.reverse.map (· ++ "\n") ++ screen.errors }

def ofExcept {α : Type} (result : Except Failure α) : Session m α :=
  match result with
  | .ok value => return value
  | .error failure => throw (.failure failure)

def read (files : Files m) (path : String) : Session m String := do
  match ← files.read path with
  | .ok text => return text
  | .error fault => throw (.failure (.inaccessibleFile fault))

/-- Writes a result to the chosen file or to the output. -/
def deliver (files : Files m) (options : Options) (text : String) : Session m Unit := do
  match options.output with
  | none => print (text ++ "\n")
  | some path =>
    match ← files.write path text with
    | .ok () => log options [Log.info s!"Written: {path}"]
    | .error fault => throw (.file fault)

def loadSettings (files : Files m) (options : Options) : Session m Settings := do
  match options.config with
  | none =>
    log options [Log.info "No configuration given, using defaults"]
    return {}
  | some path =>
    let text ← read files path
    let settings ← ofExcept (Settings.ofText text)
    log options [Log.info s!"Loaded configuration from: {path}"]
    return settings

def parseDocument (text : String) : Except Failure Json :=
  (Json.ofText text).mapError .undecodableJson

def loadPlan (files : Files m) (options : Options) (path : String) : Session m Flow.Plan := do
  log options [Log.info s!"Loading flow plan from: {path}"]
  let text ← read files path
  let plan ← ofExcept (Flow.Plan.ofText text)
  let count := plan.size
  log options [Log.info s!"Parsed flow plan with {count} states"]
  return plan

def loadInput (files : Files m) (options : Options) (path : String) : Session m Json := do
  log options [Log.info s!"Loading flow input from: {path}"]
  let text ← read files path
  ofExcept (parseDocument text)

def loadDocument (files : Files m) (options : Options) (path : String) : Session m Json := do
  log options [Log.info s!"Loading document: {path}"]
  match ← files.read path with
  | .ok text => ofExcept (parseDocument text)
  | .error fault => throw (.file fault)

def loadSchema (files : Files m) (options : Options) : Session m Schema.Table := do
  match options.schema with
  | none => return Schema.Table.draft
  | some path =>
    let text ← read files path
    let table ← ofExcept (Schema.Table.ofText text)
    let count := table.size
    log options [Log.info s!"Loaded schema with {count} types from {path}"]
    return table

/-- Prints whether a check passed. The reason for a failure ends the run. -/
def report (outcome : Except Failure Unit) (success failure : String) : Session m Unit := do
  match outcome with
  | .ok () => print ("✓ " ++ success ++ "\n")
  | .error reason =>
    print ("✗ " ++ failure ++ "\n")
    throw (.failure reason)

def logBuilt (options : Options) (graph : Graph.Document) : Session m Unit :=
  let count := graph.size
  log options [Log.info s!"Graph built: {count} nodes"]

def runPlan (files : Files m) (options : Options) (plan input : String) : Session m Unit := do
  let settings ← loadSettings files options
  let flow ← loadPlan files options plan
  let input ← loadInput files options input
  log options (Log.ofPlan flow input settings)
  match Graph.Document.ofPlan flow input settings with
  | .error failure =>
    let message := failure.message
    log options [Log.error s!"Failed to build graph: {message}"]
    throw (.failure failure)
  | .ok graph =>
    logBuilt options graph
    deliver files options graph.text

def runTools (files : Files m) (options : Options) (path : String) : Session m Unit := do
  let settings ← loadSettings files options
  let text ← read files path
  let manifest ← ofExcept (Manifest.ofText text)
  let parameters := manifest.parameters.length
  let tools := manifest.tools.length
  log options [Log.info s!"Loaded manifest '{path}': {parameters} parameters, {tools} tools"]
  log options (Log.ofManifest manifest)
  let registry ← ofExcept manifest.registry
  log options (Log.ofInference registry.tools settings)
  let plan ← ofExcept (TransferPlan.infer registry.tools settings)
  let entries := plan.sequence registry.tools
  let count := plan.size
  log options ([Log.ofSequence entries, Log.info s!"Inferred {count} transfers"] ++
    entries.map fun entry => Log.info ("  " ++ entry.stateName))
  if options.writeFlow then
    deliver files options (Flow.Plan.ofSequence entries settings).toJson.pretty
  else
    log options (Log.ofRegistry registry settings)
    let graph ← ofExcept (Graph.Document.ofRegistry registry settings)
    logBuilt options graph
    deliver files options graph.text

def runValidate (files : Files m) (options : Options) (path : String) : Session m Unit := do
  let document ← loadDocument files options path
  let table ← loadSchema files options
  log options (Log.ofValidation table document)
  report (Schema.validate table document) s!"Document '{path}' is valid"
    s!"Document '{path}' is invalid"

def runCompare (files : Files m) (options : Options) (actual expected : String) :
    Session m Unit := do
  let found ← loadDocument files options actual
  let wanted ← loadDocument files options expected
  let comparator ← ofExcept (Comparator.create wanted options.parts options.references)
  log options (Log.ofComparison comparator found)
  report (comparator.compare found) s!"Document matches '{expected}'"
    s!"Document differs from '{expected}'"

def runCommand (files : Files m) (options : Options) : Command → Session m Unit
  | .plan plan input => runPlan files options plan input
  | .tools manifest => runTools files options manifest
  | .validate document => runValidate files options document
  | .compare actual expected => runCompare files options actual expected

end Session

end Provenance.CommandLine
