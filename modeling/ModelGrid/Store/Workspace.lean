import ModelGrid.Fault

/-!
# Workspaces

A workspace is a folder of a disk.  Its files are named by paths relative to it, with slashes; one
in front of a path makes no difference.  An operation leaves the disk changed as far as it got,
also where it fails.

## Main definitions

* `Action`: a step that works on a disk and may fail.
* `Workspace`: the folder that paths are relative to.
* `Workspace.read`, `Workspace.overwrite`, `Workspace.create`, `Workspace.delete`,
  `Workspace.list`: the operations on single files and folders.
* `Workspace.session`, `Workspace.save`: take a snapshot of a file to edit, and put the
  edited text in its place.
-/

namespace ModelGrid.Store

/-- A step that works on a disk and may fail.  What was done to the disk before a fault stays. -/
abbrev Action (α : Type) := ExceptT Fault (StateM Disk) α

namespace Action

/-- Addition the disk, unless the operation fails. -/
def change (cause : DiskFault → Fault) (operation : Disk → Except DiskFault Disk) :
    Action Unit := do
  match operation (← get) with
  | .ok after => set after
  | .error fault => throw (cause fault)

end Action

/-- The folder that the paths of files are relative to. -/
structure Workspace where
  root : Path
  deriving DecidableEq, Repr

namespace Workspace

/-- The name behind a file's path that its new text is written to first. -/
def temporarySuffix : String := ".table-scaffold.tmp"

/-- Where a path of the workspace leads. -/
def pathOf (w : Workspace) (path : String) : Path :=
  w.root.join (.ofString (String.ofList (Text.dropLeading '/' path.toList)))

/-- Whether there is a file at the path. -/
def hasFile (w : Workspace) (path : String) (d : Disk) : Bool :=
  d.isFile (w.pathOf path)

/-- The text of a file. -/
def read (w : Workspace) (path : String) : Action String := do
  match (← get).find (w.pathOf path) with
  | .ok (_, .file (.text text)) => return text
  | .ok (_, .file (.binary _)) => throw (.fileUnreadable path .notText)
  | _ => throw (.fileNotFound path)

/-- Write a file, with the folders that lead to it, in place of one that is there. -/
def overwrite (w : Workspace) (path text : String) : Action Unit := do
  let full := w.pathOf path
  if let some parent := full.parent? then
    let (made, after) := Disk.createFolders parent (← get)
    set after
    if let .error fault := made then
      throw (.disk .createFolderFor path fault)
  Action.change (.disk .write path) fun d => d.write full (.text text)

/-- Write a file where there is none. -/
def create (w : Workspace) (path text : String) : Action Unit := do
  if w.hasFile path (← get) then throw (.fileExists path)
  w.overwrite path text

/-- Take a file away. -/
def delete (w : Workspace) (path : String) : Action Unit :=
  Action.change (.disk .delete path) fun d => d.remove (w.pathOf path)

/-- The files and folders directly in a folder. -/
def list (w : Workspace) (path : String) : Action Disk.Listing := do
  match (← get).listing (w.pathOf path) with
  | .ok listing => return listing
  | .error fault => throw (.disk .list path fault)

/-- A session that edits the file. -/
def session (w : Workspace) (path : String) : Action Edit.Session := do
  return .start path (← w.read path)

/-- Put the edited text in the place of the file.  It is written to a file beside it first, which
then takes the file's name. -/
def save (w : Workspace) (session : Edit.Session) : Action Unit := do
  let full := w.pathOf session.path
  let temporary := full.append temporarySuffix
  Action.change (.disk .write session.path) fun d => d.write temporary (.text session.apply)
  match (← get).rename temporary full with
  | .ok after => set after
  | .error fault =>
    modify fun d => (d.remove temporary).toOption.getD d
    throw (.disk .replace session.path fault)

/-- An insertion into a session. -/
def insert (session : Edit.Session) (offset : Nat) (text : String) (side : Edit.Side) :
    Action Edit.Session :=
  match session.insert offset text side with
  | .ok longer => return longer
  | .error refusal => throw (.invalidEdit refusal)

end Workspace

end ModelGrid.Store
