import LsxKit.Diagnosis.Engine
import LsxKit.Json.Record
import LsxKit.Packaging

/-!
# Configuration

The settings of the tools, as a JSON object in which every field may be missing.

* `Configuration.ofJson`, `Configuration.toText`: the settings of a text and the text of settings.
-/

namespace LsxKit

open Json

/-- The settings of the tools. -/
structure Configuration where
  /-- The packaging tool. -/
  divinePath : String
  /-- The game that packages are made for. -/
  game : Game
  /-- The name that problems are reported under. -/
  source : String
  deriving Repr, DecidableEq

namespace Configuration

/-- The settings unless others are given. -/
def standard : Configuration := ⟨Divine.defaultPath, Divine.standard.game, Engine.defaultSource⟩

/-- The names of the fields. -/
def fieldNames : List String := ["divine_path", "game", "diagnostics_source"]

/-- Reads the value of a field into settings. -/
def readField (c : Configuration) (name : String) (s : List Char) :
    Except Stop (Configuration × List Char) := do
  if name = "divine_path" then
    let (path, s) ← Record.string "a string" s
    return ({ c with divinePath := path }, s)
  else if name = "game" then
    let (game, s) ← Record.choice (Game.all.map fun g => (g.name, g)) s
    return ({ c with game := game }, s)
  else
    let (source, s) ← Record.string "a string" s
    return ({ c with source := source }, s)

/-- Settings as a record. -/
def layout : Record.Layout Configuration := ⟨"Config", fieldNames, readField⟩

/-- The settings of a JSON text; fields that are missing have their usual values. -/
def ofJson (text : String) : Except Error Configuration :=
  (Record.read layout standard text).mapError .json

/-- The settings as a JSON value. -/
def toJson (c : Configuration) : Value :=
  .object (fieldNames.zip [.string c.divinePath, .string c.game.name, .string c.source])

/-- The settings as text, with one field a line. -/
def toText (c : Configuration) : String := c.toJson.pretty

/-- The settings with another packaging tool, if one is given. -/
def withDivinePath (c : Configuration) : Option String → Configuration
  | some path => if path.isEmpty then c else { c with divinePath := path }
  | none => c

/-- The packaging tool of the settings. -/
def divine (c : Configuration) : Divine := ⟨c.divinePath, c.game⟩

end Configuration

end LsxKit
