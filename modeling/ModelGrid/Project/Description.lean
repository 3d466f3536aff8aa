import ModelGrid.Json.Reader
import ModelGrid.Text.Search

/-!
# The projects of a workspace

A workspace file describes its projects as JSON.  Members that mean nothing here are passed over;
a record may also be written as an array of its members in order.

## Main definitions

* `ProjectRecord`, `Catalog`: what the file says.
* `Catalog.parse?`: the reading of a text as such a file.
* `ProjectLayout`: where the code of a project is.
-/

namespace ModelGrid.Project

/-- What a workspace file says of one project. -/
structure ProjectRecord where
  root : String := ""
  sourceRoot : Option String := none
  projectType : Option String := none
  deriving DecidableEq, Repr

/-- The projects that a workspace file describes, in the order in which they are written. -/
structure Catalog where
  projects : List (String × ProjectRecord) := []
  deriving DecidableEq, Repr

/-! ### Reading -/

/-- A string with a text. -/
def textOf? : Json → Option String
  | .string text => text
  | _ => none

/-- A string with a text, or nothing. -/
def optionalText? : Json → Option (Option String)
  | .null => some none
  | value => (textOf? value).map some

/-- The value under the key, `none` inside if there is no such member.  It is an error that the key
is there twice. -/
def member? (key : String) (members : List (Option String × Json)) : Option (Option Json) :=
  match members.filter fun member => member.1 == some key with
  | [] => some none
  | [(_, value)] => some (some value)
  | _ => none

/-- Whether every key is a text. -/
def keysAreTexts (members : List (Option String × Json)) : Bool :=
  members.all fun member => member.1.isSome

namespace ProjectRecord

/-- What a JSON value says of a project. -/
def ofJson? : Json → Option ProjectRecord
  | .array [root, sourceRoot, projectType] => do
    return {
      root := ← textOf? root
      sourceRoot := ← optionalText? sourceRoot
      projectType := ← optionalText? projectType }
  | .object members => do
    guard (keysAreTexts members)
    let root ← member? "root" members
    let sourceRoot ← member? "sourceRoot" members
    let projectType ← member? "projectType" members
    return {
      root := ← (root.map textOf?).getD (some "")
      sourceRoot := ← (sourceRoot.map optionalText?).getD (some none)
      projectType := ← (projectType.map optionalText?).getD (some none) }
  | _ => none

end ProjectRecord

/-- The entries of the members of an object. -/
def entriesOf? : List (Option String × Json) → Option (List (String × ProjectRecord))
  | [] => some []
  | (key, value) :: rest => do
    let key ← key
    let entry ← ProjectRecord.ofJson? value
    let entries ← entriesOf? rest
    return (key, entry) :: entries

namespace Catalog

/-- The projects that a JSON value lists. -/
def projectsOf? : Json → Option Catalog
  | .object members => (entriesOf? members).map fun projects => { projects }
  | _ => none

/-- The reading of a JSON value as a workspace file. -/
def ofJson? : Json → Option Catalog
  | .array [] => some {}
  | .array [projects] => projectsOf? projects
  | .object members => do
    guard (keysAreTexts members)
    let projects ← member? "projects" members
    (projects.map projectsOf?).getD (some {})
  | _ => none

/-- The reading of a text as a workspace file. -/
def parse? (text : String) : Option Catalog :=
  (Json.parse? text).bind ofJson?

/-- What the file says of a project: of several entries of one name, the last counts. -/
def entry? (file : Catalog) (name : String) : Option ProjectRecord :=
  (file.projects.reverse.find? fun project => project.1 == name).map Prod.snd

end Catalog

/-! ### Where the code is -/

/-- What a project is built into. -/
inductive ProjectKind
  | application | library
  deriving DecidableEq, Repr

namespace ProjectKind

/-- The folder below the source root that generated code goes to. -/
def folder : ProjectKind → String
  | application => "app"
  | library => "lib"

/-- The name of the kind. -/
def name : ProjectKind → String
  | application => "application"
  | library => "library"

end ProjectKind

/-- Where the code of a project is. -/
structure ProjectLayout where
  sourceRoot : String
  projectType : ProjectKind
  deriving DecidableEq, Repr

namespace ProjectLayout

/-- A path without slashes at its end. -/
def withoutTrailingSlashes (path : String) : String :=
  String.ofList (Text.dropTrailing '/' path.toList)

/-- Where the code is, by what the workspace file says.  A project that is not called an
application is a library. -/
def ofRecord (entry : ProjectRecord) : ProjectLayout :=
  { sourceRoot :=
      match entry.sourceRoot with
      | some sourceRoot => withoutTrailingSlashes sourceRoot
      | none =>
        if entry.root.isEmpty then "src" else withoutTrailingSlashes entry.root ++ "/src"
    projectType :=
      if entry.projectType == some "application" then .application else .library }

/-- The folder that components go to where none is named. -/
def componentsFolder (project : ProjectLayout) : String :=
  project.sourceRoot ++ "/" ++ project.projectType.folder

end ProjectLayout

end ModelGrid.Project
