import ModelGrid.AngularModule.Search
import ModelGrid.Component.Skeleton
import ModelGrid.Component.Assembly
import ModelGrid.Model.Name
import ModelGrid.Project.Read

/-!
# Generating a component

A run settles the blueprint, reads the model, writes the files of the component and splices in what
depends on the model.  The first fault ends it; what was written by then stays.

## Main definitions

* `Request`: what a run is asked for.
* `settle`: the blueprint of a request.  No file is touched.
* `readModel`: the properties of the model in a file.
* `generate`: the whole run.
-/

namespace ModelGrid.Component

open Store Model

/-- What a run is asked for. -/
structure Request where
  /-- The name of the component. -/
  name : String
  /-- The name of the project in the workspace file. -/
  project : String
  /-- The path of the model's file.  It is not relative to the workspace. -/
  modelFile : String
  /-- A part of the name of the module file, if not the one that the settings give. -/
  modulePart : Option String := none
  /-- The folder that the component's folder goes to, if not the project's own. -/
  path : Option String := none
  deriving DecidableEq, Repr

/-- What a run did. -/
structure Report where
  blueprint : Blueprint
  properties : List Property
  /-- The paths of the files that were written anew. -/
  files : List String
  deriving DecidableEq, Repr

/-- The blueprint of a request. -/
def settle (w : Workspace) (settings : Settings) (request : Request) : Action Blueprint := do
  let some modelName := nameOfPath? request.modelFile | throw (.modelName request.modelFile)
  let project ← Project.read w settings.workspaceFile request.project
  let path := request.path.getD project.componentsFolder
  let modulePart := request.modulePart.getD settings.defaultModule
  let some moduleFile ← AngularModule.searchModule w project.sourceRoot modulePart
    | throw (.moduleNotFound modulePart)
  return {
    modelName
    componentName := request.name
    targetFolder :=
      String.ofList (Text.dropTrailing '/' path.toList) ++ "/" ++ kebabCase request.name
    moduleFile }

/-- The text of a file that is not of the workspace. -/
def readText (path : String) : Action String := do
  match (← get).find (.ofString path) with
  | .ok (_, .file (.text text)) => return text
  | .ok (_, .file (.binary _)) => throw (.fileUnreadable path .notText)
  | .ok (_, .folder) => throw (.fileUnreadable path (.disk .isFolder))
  | .error _ => throw (.fileNotFound path)

/-- The properties of the model in a file. -/
def readModel (path : String) : Action (List Property) := do
  match readSource (← readText path) with
  | .ok properties => return properties
  | .error malformed => throw (.malformedInput malformed)

/-- The whole run. -/
def generate (w : Workspace) (settings : Settings) (request : Request) : Action Report := do
  let blueprint ← settle w settings request
  let properties ← readModel request.modelFile
  let files ← Skeleton.write w blueprint.targetFolder blueprint.values
  assemble w blueprint settings.formatting properties
  return { blueprint, properties, files }

end ModelGrid.Component
