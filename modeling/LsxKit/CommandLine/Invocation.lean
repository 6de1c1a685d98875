import LsxKit.CommandLine.Options
import LsxKit.Text.Digits
import LsxKit.Version

/-!
# Invocations

What a command line asks for.

* `Request`: the commands of the program.
* `Invocation.ofArguments`: the request that arguments make.
-/

namespace LsxKit.CommandLine

/-- How problems are printed. -/
inductive Format where
  | text
  | json
  deriving Repr, DecidableEq

/-- What the program is asked to do. -/
inductive Request where
  | check (files : List String) (format : Format)
  | convertVersion (value : String)
  | bumpVersion (kind : VersionKind) (workspace : String) (dryRun : Bool)
  | showModule (workspace : String) (json : Bool)
  | showUuid (workspace : String)
  | newUuids (count : Nat)
  | newHandles (count : Nat)
  | toHandle (uuid : String)
  | fromHandle (handle : String)
  | pack (workspace : String) (dryRun : Bool)
  | convertLocalization (xml : String) (dryRun : Bool)
  | lookUp (handle workspace : String)
  deriving Repr, DecidableEq

/-- A request and the file that the configuration is read from, if one is given. -/
structure Invocation where
  configuration : Option String
  request : Request
  deriving Repr, DecidableEq

/-! ## Options -/

/-- Whether a path can be meant. -/
def isPath (s : String) : Bool := !s.isEmpty

/-- A number of things, below the limit of machine words. -/
def count? (s : String) : Option Nat := do
  let n ← Text.readSigned? s.toList
  if n < UInt64.size then some n else none

/-- Options that every command has. -/
def commonOptions : List OptionSpec := [
  ⟨"verbose", some 'v', .switch⟩,
  ⟨"config", none, .value isPath⟩,
  ⟨"help", some 'h', .help⟩]

/-- The directory of the mod. -/
def workspaceOption : OptionSpec := ⟨"workspace", some 'w', .value isPath⟩

/-- Shows what would be done. -/
def dryRunOption : OptionSpec := ⟨"dry-run", none, .switch⟩

/-- How many things to make. -/
def countOption : OptionSpec := ⟨"count", some 'n', .value fun s => (count? s).isSome⟩

/-- A command that only has commands below it. -/
def groupLevel (commands : List String) : Level where
  options := commonOptions
  commands := commands
  operandLimit := some 0
  acceptsOperand := fun _ => false

/-- A command without others below it. -/
def leafLevel (options : List OptionSpec) (operandLimit : Option Nat)
    (acceptsOperand : String → Bool) : Level where
  options := options ++ commonOptions
  commands := []
  operandLimit := operandLimit
  acceptsOperand := acceptsOperand

/-- The program itself. -/
def programLevel : Level :=
  let level := groupLevel ["check", "version", "meta", "uuid", "handle", "package", "loca", "help"]
  { level with options := ⟨"version", some 'V', .version⟩ :: level.options }

/-- The commands below those of the program. -/
def subcommands : Entries String (List String) := [
  ("version", ["convert", "bump", "help"]),
  ("meta", ["info", "uuid", "help"]),
  ("loca", ["convert", "lookup", "help"])]

/-- A command of the program that has others below it. -/
def subgroupLevel (name : String) : Level := groupLevel ((subcommands.get? name).getD [])

/-- The formats by name. -/
def formats : List (String × Format) := [("text", .text), ("json", .json)]

/-- The kinds of version numbers by name. -/
def kinds : List (String × VersionKind) := VersionKind.all.map fun k => (k.name, k)

/-! ## Commands -/

/-- The only operand. -/
def operand (r : Reading) : Except Refusal String :=
  match r.operands with
  | [s] => .ok s
  | _ => .error .usage

/-- The value of an option. -/
def Reading.value? (r : Reading) (o : OptionSpec) : Option String := r.found.get? o.long

/-- The directory of the mod; the working directory unless another is given. -/
def workspace (r : Reading) : String := (r.value? workspaceOption).getD "."

/-- How many things to make; one unless another number is given. -/
def amount (r : Reading) : Nat := ((r.value? countOption).bind count?).getD 1

/-- Reads the arguments of a command without others below it. -/
def leaf (level : Level) (request : Reading → Except Refusal Request) (args : List String) :
    Except Refusal (Request × List Reading) := do
  let r ← level.read args
  return (← request r, [r])

/-- Whether names lead from a command to one below it. `groups` are the commands that have others
below them, with the names of those. -/
def leadsDown (groups : Entries String (List String)) (names : List String) :
    List String → Bool
  | [] => true
  | name :: rest => name ∈ names && leadsDown [] ((groups.get? name).getD []) rest

/-- What a request for help with the command that names lead to comes to. -/
def helpWith (groups : Entries String (List String)) (level : Level) (names : List String) :
    Refusal :=
  if leadsDown groups level.commands names then .help else .usage

/-- Reads the arguments of a command with others below it. -/
def group (groups : Entries String (List String)) (level : Level)
    (below : String → List String → Except Refusal (Request × List Reading))
    (args : List String) : Except Refusal (Request × List Reading) := do
  let r ← level.read args
  match r.command with
  | some ("help", names) => .error (helpWith groups level names)
  | some (name, args) => do
    let (request, inner) ← below name args
    return (request, r :: inner)
  | none => .error .usage

/-- Checks files. -/
def checkCommand : List String → Except Refusal (Request × List Reading) :=
  let format : OptionSpec :=
    ⟨"format", some 'f', .value fun s => (Entries.get? s formats).isSome⟩
  leaf (leafLevel [format] none isPath) fun r =>
    if r.operands.isEmpty then .error .usage
    else .ok (.check r.operands (((r.value? format).bind (Entries.get? · formats)).getD .text))

/-- Converts a version, or bumps that of a mod. -/
def versionCommand : List String → Except Refusal (Request × List Reading) :=
  group [] (subgroupLevel "version") fun name =>
    if name = "convert" then
      leaf (leafLevel [] (some 1) fun _ => true) fun r => return .convertVersion (← operand r)
    else
      leaf (leafLevel [workspaceOption, dryRunOption] (some 1)
          fun s => (Entries.get? s kinds).isSome) fun r => do
        match Entries.get? (← operand r) kinds with
        | some kind => return .bumpVersion kind (workspace r) (r.value? dryRunOption).isSome
        | none => .error .usage

/-- Shows the module of a mod, or its UUID. -/
def metaCommand : List String → Except Refusal (Request × List Reading) :=
  let json : OptionSpec := ⟨"json", none, .switch⟩
  group [] (subgroupLevel "meta") fun name =>
    if name = "info" then
      leaf (leafLevel [workspaceOption, json] (some 0) fun _ => false) fun r =>
        return .showModule (workspace r) (r.value? json).isSome
    else
      leaf (leafLevel [workspaceOption] (some 0) fun _ => false) fun r =>
        return .showUuid (workspace r)

/-- Makes UUIDs. -/
def uuidCommand : List String → Except Refusal (Request × List Reading) :=
  leaf (leafLevel [countOption] (some 0) fun _ => false) fun r => return .newUuids (amount r)

/-- Makes handles, or converts between handles and UUIDs; only one of these. -/
def handleCommand : List String → Except Refusal (Request × List Reading) :=
  let uuid : OptionSpec := ⟨"from-uuid", none, .value fun _ => true⟩
  let handle : OptionSpec := ⟨"to-uuid", none, .value fun _ => true⟩
  leaf (leafLevel [countOption, uuid, handle] (some 0) fun _ => false) fun r =>
    match r.value? countOption, r.value? uuid, r.value? handle with
    | none, some s, none => .ok (.toHandle s)
    | none, none, some s => .ok (.fromHandle s)
    | _, none, none => .ok (.newHandles (amount r))
    | _, _, _ => .error .usage

/-- Packs a mod. -/
def packageCommand : List String → Except Refusal (Request × List Reading) :=
  leaf (leafLevel [workspaceOption, dryRunOption] (some 0) fun _ => false) fun r =>
    return .pack (workspace r) (r.value? dryRunOption).isSome

/-- Converts a localization file, or looks a handle up. -/
def locaCommand : List String → Except Refusal (Request × List Reading) :=
  group [] (subgroupLevel "loca") fun name =>
    if name = "convert" then
      leaf (leafLevel [dryRunOption] (some 1) isPath) fun r =>
        return .convertLocalization (← operand r) (r.value? dryRunOption).isSome
    else
      leaf (leafLevel [workspaceOption] (some 1) fun _ => true) fun r =>
        return .lookUp (← operand r) (workspace r)

/-- The commands of the program by name. -/
def commands : List (String × (List String → Except Refusal (Request × List Reading))) := [
  ("check", checkCommand),
  ("version", versionCommand),
  ("meta", metaCommand),
  ("uuid", uuidCommand),
  ("handle", handleCommand),
  ("package", packageCommand),
  ("loca", locaCommand)]

/-- The request that arguments make. Of configurations given at several levels the innermost
counts. -/
def Invocation.ofArguments (args : List String) : Except Refusal Invocation := do
  let (request, readings) ← group subcommands programLevel (fun name args =>
    match Entries.get? name commands with
    | some command => command args
    | none => .error .usage) args
  let configurations := readings.filterMap fun r => r.found.get? "config"
  return ⟨configurations.getLast?, request⟩

end LsxKit.CommandLine
