import LsxKit.Error
import LsxKit.Path
import LsxKit.Text.Blank

/-!
# The packaging tool

Packages are made, and localization files converted, by an external tool. Here are the games it
knows and its command lines.

* `Game.parse`: the game with a name.
* `Divine.arguments`, `Divine.commandLine`: the command line of an action.
-/

namespace LsxKit

/-- A game that the packaging tool knows. -/
inductive Game where
  | dos
  | dosee
  | dos2
  | dos2de
  | bg3
  deriving Repr, DecidableEq

namespace Game

/-- All games. -/
def all : List Game := [.dos, .dosee, .dos2, .dos2de, .bg3]

/-- The name of a game. -/
def name : Game → String
  | .dos => "dos"
  | .dosee => "dosee"
  | .dos2 => "dos2"
  | .dos2de => "dos2de"
  | .bg3 => "bg3"

/-- The game with a name, whatever the case of its letters and the blanks around it. -/
def parse (s : String) : Except Error Game :=
  let word := (Text.trimBy Text.isBlank s.toList).map Char.toLower
  match all.find? (·.name.toList = word) with
  | some game => .ok game
  | none => .error (.game s)

end Game

/-- What the packaging tool is asked to do. -/
inductive Action where
  | createPackage
  | convertLoca
  deriving Repr, DecidableEq

/-- The name of an action. -/
def Action.name : Action → String
  | .createPackage => "create-package"
  | .convertLoca => "convert-loca"

/-- The packaging tool and the game it is used for. -/
structure Divine where
  path : String
  game : Game
  deriving Repr, DecidableEq

namespace Divine

/-- The name under which the tool is found if none is configured. -/
def defaultPath : String := "divine.exe"

/-- The tool under its usual name. -/
def standard : Divine := ⟨defaultPath, .bg3⟩

/-- The arguments of an action. -/
def arguments (d : Divine) (action : Action) (source destination : String) : List String :=
  ["--game", d.game.name, "--action", action.name, "--source", source, "--destination",
    destination]

/-- The command line with the given arguments. -/
def commandLine (d : Divine) (arguments : List String) : String :=
  " ".intercalate (d.path :: arguments)

end Divine

end LsxKit
