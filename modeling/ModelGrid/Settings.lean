/-!
# Settings

What a run takes from its environment: where the workspace's projects are described, which module
is meant where none is named, and how dates are written.

## Main definitions

* `Formatting`, `Settings`: the settings.
* `Settings.standard`: those of an environment that sets none.
* `Settings.ofEnvironment`: those of an environment.
-/

namespace ModelGrid

/-- How dates are written. -/
structure Formatting where
  dateFormat : String := "dd.MM.yyyy"
  locale : String := "ru"
  deriving DecidableEq, Repr

/-- What a run takes from its environment. -/
structure Settings where
  /-- The file that describes the workspace's projects. -/
  workspaceFile : String := "angular.json"
  /-- A part of the name of the module file that is meant where none is named. -/
  defaultModule : String := "app.module"
  formatting : Formatting := {}
  deriving DecidableEq, Repr

namespace Settings

/-- The settings of an environment that sets none. -/
def standard : Settings := {}

/-! ### Names in the environment -/

def workspaceFileVariable : String := "TABLE_SCAFFOLD_WORKSPACE_FILE"

def defaultModuleVariable : String := "TABLE_SCAFFOLD_DEFAULT_MODULE"

def dateFormatVariable : String := "TABLE_SCAFFOLD_DATE_FORMAT"

def localeVariable : String := "TABLE_SCAFFOLD_LOCALE"

/-- All names that settings are looked up by. -/
def lookedUp : List String :=
  [workspaceFileVariable, defaultModuleVariable, dateFormatVariable, localeVariable]

/-- The settings of an environment, given what it holds under each name. -/
def ofEnvironment (lookup : String → Option String) : Settings :=
  { workspaceFile := (lookup workspaceFileVariable).getD standard.workspaceFile
    defaultModule := (lookup defaultModuleVariable).getD standard.defaultModule
    formatting :=
      { dateFormat := (lookup dateFormatVariable).getD standard.formatting.dateFormat
        locale := (lookup localeVariable).getD standard.formatting.locale } }

end Settings

end ModelGrid
