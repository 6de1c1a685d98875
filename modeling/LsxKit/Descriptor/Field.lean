import LsxKit.Error
import LsxKit.Text.Lower

/-!
# Known attributes

The attributes of the module and of its dependencies that have a meaning, by the ids under which
descriptors hold them.

* `ModuleField`, `DependencyField`: the attributes; `ofId?` finds one by its exact id, `parse` by
  its id in any case.
-/

namespace LsxKit

/-- An attribute of the module. -/
inductive ModuleField where
  | author
  | characterCreationLevelName
  | description
  | folder
  | gmTemplate
  | lobbyLevelName
  | md5
  | mainMenuBackgroundVideo
  | menuLevelName
  | name
  | numPlayers
  | photoBooth
  | startupLevelName
  | tags
  | type
  | uuid
  | version
  deriving Repr, DecidableEq

namespace ModuleField

/-- All attributes of the module. -/
def all : List ModuleField :=
  [.author, .characterCreationLevelName, .description, .folder, .gmTemplate, .lobbyLevelName,
    .md5, .mainMenuBackgroundVideo, .menuLevelName, .name, .numPlayers, .photoBooth,
    .startupLevelName, .tags, .type, .uuid, .version]

/-- The id of an attribute. -/
def id : ModuleField → String
  | .author => "Author"
  | .characterCreationLevelName => "CharacterCreationLevelName"
  | .description => "Description"
  | .folder => "Folder"
  | .gmTemplate => "GMTemplate"
  | .lobbyLevelName => "LobbyLevelName"
  | .md5 => "MD5"
  | .mainMenuBackgroundVideo => "MainMenuBackgroundVideo"
  | .menuLevelName => "MenuLevelName"
  | .name => "Name"
  | .numPlayers => "NumPlayers"
  | .photoBooth => "PhotoBooth"
  | .startupLevelName => "StartupLevelName"
  | .tags => "Tags"
  | .type => "Type"
  | .uuid => "UUID"
  | .version => "Version64"

/-- The attribute with an id. -/
def ofId? (id : String) : Option ModuleField := all.find? (·.id = id)

/-- The attribute with an id in any case. -/
def parse (s : String) : Except Error ModuleField :=
  match all.find? fun f => Text.lower f.id = Text.lower s with
  | some f => .ok f
  | none => .error (.moduleField s)

/-- Every attribute is found by its id. -/
theorem ofId?_id (f : ModuleField) : ofId? f.id = some f := by cases f <;> decide

theorem id_eq_of_ofId? {s : String} {f : ModuleField} (h : ofId? s = some f) : f.id = s := by
  simpa using List.find?_some h

end ModuleField

/-- An attribute of a dependency. -/
inductive DependencyField where
  | folder
  | md5
  | name
  | uuid
  | version
  deriving Repr, DecidableEq

namespace DependencyField

/-- All attributes of a dependency. -/
def all : List DependencyField := [.folder, .md5, .name, .uuid, .version]

/-- The id of an attribute. -/
def id : DependencyField → String
  | .folder => "Folder"
  | .md5 => "MD5"
  | .name => "Name"
  | .uuid => "UUID"
  | .version => "Version64"

/-- The attribute with an id. -/
def ofId? (id : String) : Option DependencyField := all.find? (·.id = id)

/-- The attribute with an id in any case. -/
def parse (s : String) : Except Error DependencyField :=
  match all.find? fun f => Text.lower f.id = Text.lower s with
  | some f => .ok f
  | none => .error (.dependencyField s)

end DependencyField

end LsxKit
