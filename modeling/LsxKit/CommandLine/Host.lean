import LsxKit.Files.System

/-!
# Hosts

A host is what a program runs on: files, other programs, random numbers and a place to print to.
Programs are written for any host, and a `Machine` is one that is a plain value.

* `Host`: the operations.
* `Machine.start`: how a machine finds and runs a program.
* `Machine.host`: a host whose operations read and change a machine.
-/

namespace LsxKit.CommandLine

/-- What a program can do, in a monad `m`. -/
structure Host (m : Type → Type) where
  /-- The text of a file. -/
  read : String → m (Except FileFault String)
  isFile : String → m Bool
  /-- The names of the files at and below a path. -/
  listing : String → m (Option (FileTree Unit))
  /-- The path without `.`, `..` and links. -/
  canonical : String → m (Except FileFault String)
  write : String → String → m (Except FileFault Unit)
  /-- Runs another program with arguments and gives its exit code. -/
  start : String → List String → m (Except FileFault Nat)
  /-- A random number of 128 bits. -/
  random : m Nat
  /-- Prints a text. -/
  print : String → m Unit

/-- A program: its exit code and what it prints, for the arguments it is given. -/
abbrev Executable := List String → Nat × String

/-- A machine: its files, those of them that are programs, the directories in which programs are
looked for, a supply of random numbers, and what was printed. -/
structure Machine where
  files : FileSystem
  /-- The programs by their paths from the top. -/
  programs : Entries String Executable
  searchPath : List String
  random : List Nat
  printed : String

namespace Machine

/-- The program that a path leads to. Whatever else it leads to cannot be run. -/
def programAt (machine : Machine) (path : String) : Except FileFault Executable := do
  match machine.programs.get? (← machine.files.canonical path) with
  | some program => return program
  | none => .error .permissionDenied

/-- The first program of a name in directories. Of what hinders the look-up, the first thing that
cannot be run counts, and only then that there is nothing. -/
def search (machine : Machine) (name : String) (denied : Bool) :
    List String → Except FileFault Executable
  | [] => .error (if denied then .permissionDenied else .notFound)
  | dir :: dirs =>
    match machine.programAt (Path.join dir name) with
    | .ok program => .ok program
    | .error .permissionDenied => search machine name true dirs
    | .error .notFound | .error .notDirectory => search machine name denied dirs
    | .error fault => .error fault

/-- The program of a name; a name with a slash is a path. -/
def find (machine : Machine) (name : String) : Except FileFault Executable :=
  if name.isEmpty then .error .notFound
  else if name.toList.contains '/' then machine.programAt name
  else machine.search name false machine.searchPath

/-- Runs a program: its exit code, and the machine after it. -/
def start (machine : Machine) (name : String) (arguments : List String) :
    Except FileFault (Nat × Machine) :=
  if !(name :: arguments).all FileSystem.isAskable then .error .nulInCommand
  else
    (machine.find name).map fun program =>
      let (code, text) := program arguments
      (code, { machine with printed := machine.printed ++ text })

/-- The next random number. -/
def draw (machine : Machine) : Nat × Machine :=
  match machine.random with
  | n :: ns => (n, { machine with random := ns })
  | [] => (0, machine)

/-- The host that works on a machine. -/
def host : Host (StateM Machine) where
  read path := return (← get).files.read path
  isFile path := return (← get).files.isFile path
  listing path := return ((← get).files.listing path).map (FileTree.map fun _ => ())
  canonical path := return (← get).files.canonical path
  write path text := do
    let machine ← get
    match machine.files.write path text with
    | .ok files => set { machine with files }; return .ok ()
    | .error fault => return .error fault
  start name arguments := do
    match (← get).start name arguments with
    | .ok (code, machine) => set machine; return .ok code
    | .error fault => return .error fault
  random := modifyGet draw
  print text := modify fun machine => { machine with printed := machine.printed ++ text }

end Machine

end LsxKit.CommandLine
