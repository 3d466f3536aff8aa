import ModelGrid.AngularModule.ImportPath
import ModelGrid.Component.Template

/-!
# Blueprints

A blueprint holds the names and places that are settled before a file is touched.  All other names
and paths of a component follow from it.

## Main definitions

* `Blueprint`: what is settled.
* `Blueprint.serviceFile`, `Blueprint.constantsFile`, `Blueprint.componentStem`,
  `Blueprint.interfaceFile`: the paths that follow.
-/

namespace ModelGrid.Component

/-- The names and places that are settled before a file is touched. -/
structure Blueprint where
  modelName : String
  componentName : String
  /-- The folder that the component's files go to. -/
  targetFolder : String
  /-- The module file that declares the component. -/
  moduleFile : String
  deriving DecidableEq, Repr

namespace Blueprint

def dashedName (b : Blueprint) : String :=
  kebabCase b.componentName

def className (b : Blueprint) : String :=
  componentClassOf b.componentName

def serviceFile (b : Blueprint) : String :=
  b.targetFolder ++ "/" ++ b.dashedName ++ "-data.service.ts"

def constantsFile (b : Blueprint) : String :=
  b.targetFolder ++ "/" ++ b.dashedName ++ ".component.constants.ts"

/-- The path of the component's class without extension, as imports name it. -/
def componentStem (b : Blueprint) : String :=
  b.targetFolder ++ "/" ++ b.dashedName ++ ".component"

/-- The path of the interface that describes an object of the model. -/
def interfaceFile (b : Blueprint) : String :=
  b.targetFolder ++ "/" ++ kebabCase b.modelName ++ ".ts"

def values (b : Blueprint) : Values :=
  .ofNames b.componentName b.modelName

/-- The path that the module file imports the component by. -/
def importPath (b : Blueprint) : String :=
  AngularModule.relativeImport b.moduleFile b.componentStem

end Blueprint

end ModelGrid.Component
