import ModelGrid.AngularModule.Registration
import ModelGrid.Component.Blueprint
import ModelGrid.Component.Contribution
import ModelGrid.Store.Workspace

/-!
# Assembling a component

Each step of the assembly edits one file: it takes a snapshot, plans its insertions by the structure
of the snapshot, and puts the edited text in its place.  A step that finds no place for what it
inserts leaves the file as it is.  What is inserted twice stands there twice.

## Main definitions

* `addColumns`, `addRow`, `register`, `writeInterface`: the steps.
* `assemble`: all of them, one after another.
-/

namespace ModelGrid.Component

open Store Model

/-- Insert a text at an anchor of a file, on its right side. -/
def insertAt (w : Workspace) (path : String) (anchor : Edit.Anchor) (text : String) :
    Action Unit := do
  let session ← w.session path
  match anchor.offset? (Syntax.Document.parse session.snapshot) with
  | none => throw (.anchorNotFound anchor)
  | some offset => w.save (← Workspace.insert session offset text .right)

/-- Register a column for each property ahead of the data service's `return`. -/
def addColumns (w : Workspace) (b : Blueprint) (properties : List Property) :
    Action Unit :=
  insertAt w b.serviceFile .beforeReturn (Contribution.columnBlock properties)

/-- Return a row with a field for each property from the mapping function. -/
def addRow (w : Workspace) (b : Blueprint) (formatting : Formatting)
    (properties : List Property) : Action Unit :=
  insertAt w b.constantsFile .arrowBodyStart
    (Contribution.rowBlock formatting properties)

/-- Insert planned additions into a session, in order. -/
def insertAdditions (session : Edit.Session) :
    List AngularModule.Addition → Action Edit.Session
  | [] => return session
  | addition :: rest => do
    insertAdditions (← Workspace.insert session addition.offset addition.text .left) rest

/-- Import and declare the component in the module file. -/
def register (w : Workspace) (b : Blueprint) : Action Unit := do
  let session ← w.session b.moduleFile
  let file := Syntax.Document.parse session.snapshot
  let additions := AngularModule.Registration.plan file b.className b.importPath
  w.save (← insertAdditions session additions)

/-- Write the interface that describes an object of the model, in place of a file that is there. -/
def writeInterface (w : Workspace) (b : Blueprint) (properties : List Property) :
    Action Unit := do
  if w.hasFile b.interfaceFile (← get) then w.delete b.interfaceFile
  w.create b.interfaceFile ""
  let session ← w.session b.interfaceFile
  w.save
    (← Workspace.insert session 0 (Contribution.interfaceDeclaration b.modelName properties) .left)

/-- All steps, one after another. -/
def assemble (w : Workspace) (b : Blueprint) (formatting : Formatting)
    (properties : List Property) : Action Unit := do
  addColumns w b properties
  addRow w b formatting properties
  register w b
  writeInterface w b properties

end ModelGrid.Component
