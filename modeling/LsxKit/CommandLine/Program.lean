import LsxKit.CommandLine.Host
import LsxKit.CommandLine.Invocation
import LsxKit.CommandLine.Report
import LsxKit.Configuration
import LsxKit.Identifier
import LsxKit.Workspace

/-!
# The program

What the program does on a host for the arguments it is given.

* `run`: prints the results of a command and gives the exit code and the text of errors.
-/

namespace LsxKit.CommandLine

/-- What the surroundings of the program say. -/
structure Environment where
  /-- The packaging tool, in place of the configured one. -/
  divinePath : Option String
  /-- The language of the user. -/
  language : Option String
  /-- The usual file of the configuration. -/
  configuration : Option String
  deriving Repr, DecidableEq

/-- The name and the version of the program. -/
def programVersion : String := "macmeta 0.1.0"

/-- The shape of the command line. -/
def usage : String :=
  "Usage: macmeta [--verbose] [--config FILE] <check|version|meta|uuid|handle|package|loca> ..."

/-- Whether pictures are shown: if the language says that text is UTF-8. -/
def Environment.pictures (env : Environment) : Bool :=
  match env.language with
  | some s => "UTF-8".toList.isSuffixOf (s.toList.map Char.toUpper)
  | none => false

/-- Why a command ends before its end. -/
inductive Failure where
  | error (e : Error)
  /-- The command refuses to go on. -/
  | refused (message : String)
  /-- The answer is negative. -/
  | negative (message : String)
  deriving Repr, DecidableEq

/-- The text of a failure. -/
def Failure.text : Failure → String
  | .error e => failureText e
  | .refused message => "Error: " ++ message
  | .negative message => message

/-- How the program ended. -/
structure Outcome where
  code : Nat
  errors : String
  deriving Repr, DecidableEq

variable {m : Type → Type} [Monad m]

/-- A command: what it does on a host, unless it fails. -/
abbrev Command (m : Type → Type) := ExceptT Failure m

/-- Goes on with a result. -/
def orFail {α : Type} (r : Except Error α) : Command m α :=
  match r with
  | .ok a => return a
  | .error e => throw (.error e)

/-- Does something with files that can fail. -/
def onFile {α : Type} (action : m (Except FileFault α)) : Command m α := do
  match ← (action : m _) with
  | .ok a => return a
  | .error fault => throw (.error (.file fault))

/-- Prints a text. -/
def print (host : Host m) (text : String) : Command m Unit := do
  (host.print text : m _)

/-! ## Files of mods -/

/-- The path of the descriptor in a workspace. -/
def findDescriptor (host : Host m) (workspace : String) : Command m String := do
  orFail (Workspace.descriptor workspace (← (host.listing workspace : m _)))

/-- The descriptor of a file. -/
def readDescriptor (host : Host m) (path : String) : Command m Descriptor := do
  orFail (Descriptor.parse (← onFile (host.read path)))

/-- The table of localization files, in the order given. -/
def readTable (host : Host m) (paths : List String) : Command m LocalizationTable :=
  paths.foldlM (fun table path => do
    let (table, _) ← orFail (table.extend (← onFile (host.read path)))
    return table) LocalizationTable.empty

/-- The configuration: that of a given file, or that of the usual one, whose faults count as its
absence. -/
def configuration (host : Host m) (env : Environment) (path : Option String) :
    Command m Configuration := do
  let read ← match path, env.configuration with
    | some path, _ => orFail (Configuration.ofJson (← onFile (host.read path)))
    | none, some path =>
      let text ← (host.read path : m _)
      pure (((text.toOption.bind fun s => (Configuration.ofJson s).toOption)).getD .standard)
    | none, none => pure .standard
  return read.withDivinePath env.divinePath

/-- Runs the packaging tool. -/
def runDivine (host : Host m) (divine : Divine) (arguments : List String) : Command m Unit := do
  match ← (host.start divine.path arguments : m _) with
  | .ok 0 => return
  | .ok code => throw (.error (.tool divine.path s!"exit code {code}"))
  | .error fault => throw (.error (.tool divine.path fault.message))

/-! ## Commands -/

/-- Checks files with the engines for the known kinds of documents. -/
def check (host : Host m) (pictures : Bool) (c : Configuration) (files : List String)
    (format : Format) : Command m Unit := do
  let engines := (← orFail Engine.known).map (·.withSource c.source)
  let (store, skipped) ← files.foldlM (fun (store, skipped) path => do
    let (store, checked) := store.update engines (.ofFile path (← onFile (host.read path)))
    return (store, if checked then skipped else skipped ++ [path])) (Store.empty, [])
  match format with
  | .text =>
    for path in skipped do
      print host (statusLine pictures lens s!"{path}: no schema applies, skipped")
    for (uri, problems) in store.toList do
      for p in problems do
        print host (problemLine uri p)
    print host (summary pictures store.size store.problemCount)
  | .json => print host ((checkJson store).pretty ++ "\n")
  if store.problemCount ≠ 0 then throw (.negative "")

/-- Converts a version to its other form. -/
def convertVersion (host : Host m) (value : String) : Command m Unit := do
  let v ← orFail (Version.parseAny value)
  if '.' ∈ value.toList then
    if v.fits then print host s!"{v.pack.toNat}\n"
    else throw (.refused s!"{v.render} does not fit in a Version64 number")
  else print host (v.render ++ "\n")

/-- Bumps the version of a mod. -/
def bumpVersion (host : Host m) (pictures : Bool) (kind : VersionKind) (workspace : String)
    (dryRun : Bool) : Command m Unit := do
  let path ← findDescriptor host workspace
  let d ← readDescriptor host path
  let previous ← orFail d.version
  let (d, bumped) ← orFail (d.bump kind)
  if dryRun then
    print host (dryRunLine s!"{path} would change {previous.render} -> {bumped.render}")
  else
    print host (statusLine pictures disk s!"Writing {path}")
    onFile (host.write path (← orFail d.toXml))
    print host (statusLine pictures sparkle
      s!"Version bumped to {bumped.render} ({bumped.pack.toNat})")

/-- Shows what the descriptor of a mod says. -/
def showModule (host : Host m) (workspace : String) (json : Bool) : Command m Unit := do
  let path ← findDescriptor host workspace
  let d ← readDescriptor host path
  print host (if json then (moduleJson path d).pretty ++ "\n" else moduleText path d)

/-- Packs a mod into a package beside its root folder. -/
def pack (host : Host m) (pictures : Bool) (divine : Divine) (workspace : String)
    (dryRun : Bool) : Command m Unit := do
  let path ← onFile (host.canonical (← findDescriptor host workspace))
  let root ← orFail (Path.modRoot path)
  let destination ← orFail (Path.packageOf root)
  let arguments := divine.arguments .createPackage root destination
  if dryRun then print host (dryRunLine (divine.commandLine arguments))
  else
    print host (statusLine pictures CommandLine.package s!"Packing {root}")
    runDivine host divine arguments
    print host (statusLine pictures sparkle s!"Wrote {destination}")

/-- Converts a localization file. -/
def convertLocalization (host : Host m) (pictures : Bool) (divine : Divine) (xml : String)
    (dryRun : Bool) : Command m Unit := do
  unless ← (host.isFile xml : m _) do throw (.refused s!"{xml} is not a file")
  let destination ← orFail (Path.convertedOf xml)
  let arguments := divine.arguments .convertLoca xml destination
  if dryRun then print host (dryRunLine (divine.commandLine arguments))
  else
    runDivine host divine arguments
    print host (statusLine pictures sparkle s!"Wrote {destination}")

/-- Looks the text of a handle up in the localization files of a mod. -/
def lookUp (host : Host m) (pictures : Bool) (handle workspace : String) : Command m Unit := do
  let paths := Workspace.localizations workspace (← (host.listing workspace : m _))
  print host (statusLine pictures lens s!"Searching {paths.length} localization file(s)")
  match (← readTable host paths).get? (Text.trim handle) with
  | some text => print host (text ++ "\n")
  | none => throw (.negative s!"Handle {handle} not found")

/-- Prints random identifiers, one a line. -/
def printRandom (host : Host m) (ofBits : Nat → String) : Nat → Command m Unit
  | 0 => return
  | count + 1 => do
    print host (ofBits (← (host.random : m _)) ++ "\n")
    printRandom host ofBits count

/-- Does what is asked for. -/
def perform (host : Host m) (pictures : Bool) (c : Configuration) : Request → Command m Unit
  | .check files format => check host pictures c files format
  | .convertVersion value => convertVersion host value
  | .bumpVersion kind workspace dryRun => bumpVersion host pictures kind workspace dryRun
  | .showModule workspace json => showModule host workspace json
  | .showUuid workspace => do
    let d ← readDescriptor host (← findDescriptor host workspace)
    print host ((← orFail d.uuid) ++ "\n")
  | .newUuids count => printRandom host Identifier.uuidOfBits count
  | .newHandles count => printRandom host Identifier.handleOfBits count
  | .toHandle uuid => do print host ((← orFail (Identifier.toHandle uuid)) ++ "\n")
  | .fromHandle handle => do print host ((← orFail (Identifier.fromHandle handle)) ++ "\n")
  | .pack workspace dryRun => pack host pictures c.divine workspace dryRun
  | .convertLocalization xml dryRun => convertLocalization host pictures c.divine xml dryRun
  | .lookUp handle workspace => lookUp host pictures handle workspace

/-- Runs the program: a usage error has the exit code two, a failure the exit code one. -/
def run (host : Host m) (env : Environment) (arguments : List String) : m Outcome := do
  match Invocation.ofArguments arguments with
  | .error .usage => return ⟨2, usage⟩
  | .error .version => host.print (programVersion ++ "\n"); return ⟨0, ""⟩
  | .error .help => host.print (usage ++ "\n"); return ⟨0, ""⟩
  | .ok invocation =>
    let command : Command m Unit := do
      let c ← configuration host env invocation.configuration
      perform host env.pictures c invocation.request
    match ← command.run with
    | .ok () => return ⟨0, ""⟩
    | .error failure => return ⟨1, failure.text⟩

end LsxKit.CommandLine
