import ModelGrid.Edit.Session
import ModelGrid.Model.Reading
import ModelGrid.Store.Disk
import ModelGrid.Edit.Anchor

/-!
# Faults

Everything that can go wrong in a run, by its cause.  The wording of each cause is given once, by
`Fault.message`.

## Main definitions

* `Fault`: the causes.
* `Fault.message`: what the user is told.
-/

namespace ModelGrid

open Store

/-- Why a file that is there cannot be read as text. -/
inductive ReadFault
  | disk (fault : DiskFault)
  | notText
  deriving DecidableEq, Repr

def ReadFault.message : ReadFault → String
  | disk fault => fault.message
  | notText => "stream did not contain valid UTF-8"

/-- What was tried on a file or folder of the workspace. -/
inductive Attempt
  | createFolderFor | write | delete | list | replace
  deriving DecidableEq, Repr

def Attempt.message : Attempt → String
  | createFolderFor => "Failed to create directory for "
  | write => "Failed to write "
  | delete => "Failed to delete "
  | list => "Failed to read directory "
  | replace => "Failed to replace "

/-- Why a run, or a step of it, fails. -/
inductive Fault
  | projectNotFound (name : String)
  | moduleNotFound (module' : String)
  | fileNotFound (path : String)
  | fileUnreadable (path : String) (cause : ReadFault)
  | anchorNotFound (anchor : Edit.Anchor)
  | malformedInput (malformed : Model.Malformed)
  | modelName (path : String)
  | workspaceFileNotFound (path : String)
  | workspaceFileUnparsable (path : String)
  | invalidEdit (refusal : Edit.Refusal)
  | fileExists (path : String)
  | disk (attempt : Attempt) (path : String) (cause : DiskFault)
  deriving DecidableEq, Repr

namespace Fault

/-- What the user is told. -/
def message : Fault → String
  | projectNotFound name => "Project not found: " ++ name
  | moduleNotFound module' => "Could not find module '" ++ module' ++ "'"
  | fileNotFound path => "File not found: " ++ path
  | fileUnreadable path cause => "File unreadable: " ++ path ++ ": " ++ cause.message
  | anchorNotFound anchor => "Anchor not found: " ++ anchor.title
  | malformedInput m =>
    "Malformed input at line " ++ toString m.line ++ ": " ++ m.fault.message ++ " - '" ++ m.text ++
      "'"
  | modelName path => "Could not derive model name from '" ++ path ++ "'"
  | workspaceFileNotFound path => "Workspace error: workspace file '" ++ path ++ "' not found"
  | workspaceFileUnparsable path => "Workspace error: Failed to parse " ++ path
  | invalidEdit r =>
    "Invalid edit: offset " ++ toString r.offset ++ " is not a valid position in " ++ r.path ++
      " (" ++ toString r.size ++ " bytes)"
  | fileExists path => "I/O error: File already exists: " ++ path
  | disk attempt path cause => "I/O error: " ++ attempt.message ++ path ++ ": " ++ cause.message

end Fault

end ModelGrid
