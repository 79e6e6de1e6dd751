import Provenance.CommandLine.Session

/-! Files in memory, so that a run can be computed. A path is followed name by
name: `..` leaves only a folder that is there, and nothing lies behind a file. -/

namespace Provenance.CommandLine

/-- The names that lead to a file or folder, innermost first. Outside of the
run's own folder they start with `..` for each folder above it, or with `/`. -/
abbrev Place := List String

def Place.above : Place → Place
  | [] => [".."]
  | ".." :: rest => ".." :: ".." :: rest
  | "/" :: rest => "/" :: rest
  | _ :: rest => rest

/-- Whether a place is the run's own folder or one around it. -/
def Place.isAround (place : Place) : Bool := place.all fun name => name = ".." || name = "/"

inductive Entry where
  | folder
  | file (text : String)
  deriving DecidableEq

structure Folder where
  entries : List (Place × Entry) := []

namespace Folder

/-- What stands at a place. The latest entry counts. -/
def entry? (f : Folder) (place : Place) : Option Entry :=
  if place.isAround then some .folder
  else (f.entries.find? (·.1 = place)).map Prod.snd

def put (f : Folder) (place : Place) (entry : Entry) : Folder :=
  { f with entries := (place, entry) :: f.entries }

def step (place : Place) (name : String) : Place :=
  if name = "" || name = "." then place
  else if name = ".." then place.above
  else name :: place

/-- The place that names lead to. All but the last place must be folders. -/
def follow (f : Folder) : Place → List String → Except FileFault Place
  | place, [] => .ok place
  | place, name :: rest =>
    match f.entry? place with
    | none => .error .missing
    | some (.file _) => .error .notFolder
    | some .folder => f.follow (step place name) rest

/-- Where the names of a path start. -/
def start (path : String) : Place := if path.startsWith "/" then ["/"] else []

def names (path : String) : List String := path.splitOn "/"

def read (f : Folder) (path : String) : Except FileFault String := do
  if path = "" then throw .missing
  match f.entry? (← f.follow (start path) (names path)) with
  | none => throw .missing
  | some .folder => throw .isFolder
  | some (.file text) => return text

def isFolder (f : Folder) (base : Place) (names : List String) : Bool :=
  match f.follow base names with
  | .ok place => f.entry? place = some .folder
  | .error _ => false

def make (f : Folder) (base : Place) (names : List String) : Except FileFault Folder := do
  let place ← f.follow base names
  match f.entry? place with
  | none => return f.put place .folder
  | some _ => throw .taken

/-- Makes a folder and those above it, given its names innermost first. -/
def makeAll (f : Folder) (base : Place) : List String → Except FileFault Folder
  | [] => .ok f
  | name :: above => do
    let path := (name :: above).reverse
    match f.make base path with
    | .ok f => return f
    | .error .missing =>
      let f ← f.makeAll base above
      if f.isFolder base path then return f else f.make base path
    | .error fault => if f.isFolder base path then return f else throw fault

def namesAbove (path : String) : List String :=
  ((names path).filter fun name => name ≠ "" && name ≠ ".").dropLast

/-- Puts a file where there is no folder. A path that ends in a slash names one. -/
def overwrite (f : Folder) (path text : String) : Except FileFault Folder := do
  if path = "" then throw .missing
  let place ← f.follow (start path) ((names path).reverse.dropWhile (· = "")).reverse
  if path.endsWith "/" || f.entry? place = some .folder then throw .isFolder
  return f.put place (.file text)

def write (f : Folder) (path text : String) : Except FileFault Folder := do
  (← f.makeAll (start path) (namesAbove path).reverse).overwrite path text

/-- The files of a folder in memory. A write that fails changes no file. -/
def files : Files (StateM Folder) where
  read path := return (← get).read path
  write path text := do
    match (← get).write path text with
    | .ok folder => set folder; return .ok ()
    | .error fault => return .error fault

end Folder

end Provenance.CommandLine
