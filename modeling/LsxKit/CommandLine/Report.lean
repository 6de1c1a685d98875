import LsxKit.Descriptor.Basic
import LsxKit.Diagnosis.Store
import LsxKit.Json.Printer

/-!
# Printed reports

The texts that the program prints.

* `problemLine`, `summary`, `checkJson`: what a check found.
* `moduleText`, `moduleJson`: what a descriptor says.
* `failureText`: an error with what it comes from.
-/

namespace LsxKit.CommandLine

open Json

/-! ## Status lines -/

/-- A picture in front of a line, and what stands there if pictures are not shown. -/
structure Picture where
  shown : String
  plain : String

/-- Something is read. -/
def lens : Picture := ⟨"🔍 ", ""⟩

/-- Something is packed. -/
def package : Picture := ⟨"📦 ", ""⟩

/-- Something is written. -/
def disk : Picture := ⟨"💾 ", ""⟩

/-- Something is done. -/
def sparkle : Picture := ⟨"✨ ", ""⟩

/-- Something failed. -/
def cross : Picture := ⟨"❌ ", "x "⟩

/-- A line with a picture in front. -/
def statusLine (pictures : Bool) (p : Picture) (text : String) : String :=
  (if pictures then p.shown else p.plain) ++ text ++ "\n"

/-- A line about what would be done. -/
def dryRunLine (text : String) : String := "[dry-run] " ++ text ++ "\n"

/-! ## Checks -/

/-- A problem of a file, its line and its character counted from one. -/
def problemLine (path : String) (p : Problem) : String :=
  let code := match p.code with
    | some code => s!"[{code}]"
    | none => ""
  s!"{path}:{p.range.start.line + 1}:{p.range.start.column + 1}: " ++
    s!"{p.severity.name}{code}: {p.message}\n"

/-- The closing line of a check. -/
def summary (pictures : Bool) (files problems : Nat) : String :=
  let noun := if files = 1 then "file" else "files"
  if problems = 0 then statusLine pictures sparkle s!"{files} {noun} checked, no problems"
  else statusLine pictures cross s!"{problems} problem(s) in {files} {noun}"

/-- The name of a severity in JSON. -/
def severityJson : Severity → String
  | .error => "error"
  | .warning => "warning"
  | .information => "information"
  | .hint => "hint"

/-- A position in JSON. -/
def positionJson (p : Position) : Value :=
  .object [("line", .number (.int p.line)), ("character", .number (.int p.column))]

/-- A problem in JSON. -/
def problemJson (p : Problem) : Value :=
  .object [
    ("severity", .string (severityJson p.severity)),
    ("source", .string p.source),
    ("code", (p.code.map Value.string).getD .null),
    ("message", .string p.message),
    ("range", .object [("start", positionJson p.range.start), ("end", positionJson p.range.stop)])]

/-- The problems of all files in JSON. -/
def checkJson (s : Store) : Value :=
  .array <| s.toList.map fun (uri, problems) =>
    .object [("uri", .string uri), ("problems", .array (problems.map problemJson))]

/-! ## Descriptors -/

/-- A text with spaces after it, up to a width. -/
def padded (width : Nat) (s : String) : String :=
  s ++ String.ofList (List.replicate (width - s.length) ' ')

/-- What a descriptor says, as text. -/
def moduleText (path : String) (d : Descriptor) : String :=
  let info := d.info.map fun (field, value) => s!"  {field.id} {value}\n"
  let version := match d.version with
    | .ok v => "  " ++ padded 28 "(version)" ++ " " ++ v.render ++ "\n"
    | .error _ => ""
  let dependencies :=
    if d.dependencies.isEmpty then "\nNo dependencies\n"
    else
      "\nDependencies:\n" ++ String.join (d.dependencies.map fun entries =>
        let name := (entries.get? .name).getD "?"
        let uuid := (entries.get? .uuid).getD "?"
        s!"  - {name} ({uuid})\n")
  path ++ "\n\nModuleInfo:\n" ++ String.join info ++ version ++ dependencies

/-- What a descriptor says, in JSON. -/
def moduleJson (path : String) (d : Descriptor) : Value :=
  .object [
    ("path", .string path),
    ("moduleInfo", .object (d.info.map fun (field, value) => (field.id, .string value))),
    ("dependencies", .array (d.dependencies.map fun entries =>
      .object (entries.map fun (field, value) => (field.id, .string value))))]

/-! ## Errors -/

/-- A text each of whose lines has spaces in front. -/
def indented (first rest : String) (s : String) : String :=
  first ++ ("\n" ++ rest).intercalate (s.splitOn "\n")

/-- An error with what it comes from: one cause plain, several with their numbers. -/
def failureText (e : Error) : String :=
  let head := "Error: " ++ e.message
  match e.causes with
  | [] => head
  | [cause] => head ++ "\n\nCaused by:\n" ++ indented "    " "    " cause
  | causes =>
    head ++ "\n\nCaused by:" ++ String.join (causes.zipIdx.map fun (cause, i) =>
      "\n" ++ indented s!"    {i}: " "       " cause)

end LsxKit.CommandLine
