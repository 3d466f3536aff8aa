import ModelGrid.Project.Description
import ModelGrid.Store.Workspace

/-!
# Looking up a project

## Main definitions

* `Project.read`: where the code of a named project is, by the workspace file.
-/

namespace ModelGrid.Project

open Store

/-- Where the code of a named project is. -/
def read (w : Workspace) (workspaceFile name : String) : Action ProjectLayout := do
  let text ← tryCatch (w.read workspaceFile) fun fault =>
    match fault with
    | .fileNotFound path => throw (.workspaceFileNotFound path)
    | other => throw other
  match Catalog.parse? text with
  | none => throw (.workspaceFileUnparsable workspaceFile)
  | some file =>
    match file.entry? name with
    | none => throw (.projectNotFound name)
    | some entry => return .ofRecord entry

end ModelGrid.Project
