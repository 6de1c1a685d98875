import LsxKit.Text.Lines
import LsxKit.Text.Blank
import LsxKit.Text.Lowercase
import LsxKit.Text.Position
import LsxKit.Path

/-!
# Text documents and problems

* `TextDocument`: an open document.
* `Problem`: a message about a range of a document.
* `Range.toLineEnd`, `Range.wholeLine`: ranges that end with a line.
-/

namespace LsxKit

/-- An open document. -/
structure TextDocument where
  uri : String
  language : String
  /-- Grows with every edit. -/
  version : Int
  text : String
  deriving Repr, DecidableEq

namespace TextDocument

/-- The URI as a path. -/
def path (d : TextDocument) : String :=
  let scheme := "file://".toList
  let uri := d.uri.toList
  if scheme.isPrefixOf uri then String.ofList (uri.drop scheme.length) else d.uri

/-- What follows the last slash or backslash of the URI. -/
def fileName (d : TextDocument) : String :=
  String.ofList ((d.uri.toList.reverse.takeWhile fun c => c ≠ '/' && c ≠ '\\').reverse)

/-- Whether the name of the file ends with `s`. -/
def nameEndsWith (d : TextDocument) (s : String) : Bool :=
  s.toList.isSuffixOf d.fileName.toList

/-- The language of a file, by the extension of its path. -/
def languageOf (path : String) : String :=
  match (Path.extension? path).map Text.lowercase with
  | some "xml" | some "lsx" => "xml"
  | some "json" | some "lsj" => "json"
  | _ => "plaintext"

end TextDocument

/-- How serious a problem is. -/
inductive Severity where
  | error
  | warning
  | information
  | hint
  deriving Repr, DecidableEq

/-- The name of a severity. -/
def Severity.name : Severity → String
  | .error => "error"
  | .warning => "warning"
  | .information => "info"
  | .hint => "hint"

/-- A range of a text. -/
structure Range where
  start : Position
  stop : Position
  deriving Repr, DecidableEq

namespace Range

/-- The range of one of the lines of a text from a column to the end of the line; empty if the line
is shorter or does not exist. -/
def toLineEnd (lines : List (List Char)) (line column : Nat) : Range :=
  let stop := match lines[line]? with
    | some l => l.length
    | none => column
  ⟨⟨line, column⟩, ⟨line, max stop column⟩⟩

/-- The range of one of the lines of a text from its first character that is no blank to its
end. -/
def wholeLine (lines : List (List Char)) (line : Nat) : Range :=
  let start := match lines[line]? with
    | some l => (l.takeWhile Text.isBlank).length
    | none => 0
  toLineEnd lines line start

end Range

/-- A message about a range of a document. -/
structure Problem where
  severity : Severity
  /-- The name of what reports it. -/
  source : String
  code : Option String
  message : String
  range : Range
  deriving Repr, DecidableEq

/-- A problem with its position, lines and characters counted from one. -/
def Problem.render (p : Problem) : String :=
  s!"{p.range.start.line + 1}:{p.range.start.column + 1}: {p.severity.name}: {p.message}"

end LsxKit
