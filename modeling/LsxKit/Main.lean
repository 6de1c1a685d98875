import LsxKit.CommandLine.Program

/-!
# The command line

Runs the program on the files, the environment and the output of this process. Other programs
cannot be started from here, so the packaging tool is reported as missing.
-/

namespace LsxKit.CommandLine

/-- The fault that an error of the system stands for. -/
def faultOf : IO.Error → FileFault
  | .noFileOrDirectory .. => .notFound
  | .permissionDenied .. => .permissionDenied
  | .invalidArgument _ code _ => if code = 36 then .nameTooLong else .nulInPath
  | .inappropriateType _ code _ => if code = 21 ∨ code = -21 then .isDirectory else .notDirectory
  | _ => .notText

/-- Does something that can fail. -/
def attempt {α : Type} (action : IO α) : IO (Except FileFault α) :=
  try return .ok (← action) catch e => return .error (faultOf e)

/-- The names of the files at and below a path, down to a depth. -/
def listingOf : Nat → String → IO (Option (FileTree Unit))
  | 0, _ => return none
  | depth + 1, path => do
    let place := System.mkFilePath [path]
    unless ← place.pathExists do return none
    if ← place.isDir then
      let mut entries : List (String × FileTree Unit) := []
      for entry in ← place.readDir do
        if let some t ← listingOf depth (Path.join path entry.fileName) then
          entries := (entry.fileName, t) :: entries
      return some (.directory entries)
    else return some (.file ())

/-- A number of 128 random bits. -/
def randomBits : IO Nat := do
  return (← IO.getRandomBytes 16).foldl (fun n b => n * 256 + b.toNat) 0

/-- The host of this process. -/
def processHost : Host IO where
  read path := do
    match ← attempt (IO.FS.readBinFile path) with
    | .ok bytes =>
      match String.fromUTF8? bytes with
      | some text => return .ok text
      | none => return .error .notText
    | .error fault => return .error fault
  isFile path := do
    let place := System.mkFilePath [path]
    return (← place.pathExists) && !(← place.isDir)
  listing path := listingOf 256 path
  canonical path := attempt do return (← IO.FS.realPath path).toString
  write path text := attempt (IO.FS.writeFile path text)
  start _ _ := return .error .notFound
  random := randomBits
  print text := do (← IO.getStdout).putStr text

/-- The usual file of the configuration, below the directory for configurations. -/
def usualConfiguration : IO (Option String) := do
  let base ← match ← IO.getEnv "XDG_CONFIG_HOME" with
    | some dir =>
      if dir.startsWith "/" then pure (some dir)
      else pure ((← IO.getEnv "HOME").map (Path.join · ".config"))
    | none => pure ((← IO.getEnv "HOME").map (Path.join · ".config"))
  return base.map (Path.join · "MacMeta/config.json")

/-- Runs the program with the arguments of the process. -/
def start (arguments : List String) : IO UInt32 := do
  let env : Environment := {
    divinePath := ← IO.getEnv "MACMETA_DIVINE_PATH"
    language := ← IO.getEnv "LANG"
    configuration := ← usualConfiguration }
  let outcome ← run processHost env arguments
  unless outcome.errors.isEmpty do IO.eprintln outcome.errors
  return outcome.code.toUInt32

end LsxKit.CommandLine

/-- The program. -/
def main (arguments : List String) : IO UInt32 := LsxKit.CommandLine.start arguments
