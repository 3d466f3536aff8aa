import ModelGrid.Store.Workspace

/-!
# Finding a module file

A module file is searched for along a chain of folders: in a folder first among its files, then in
the first of its folders, and nowhere else.

## Main definitions

* `searchModule`: the first file on the chain whose name has a given part.
-/

namespace ModelGrid.AngularModule

open Store

/-- The search in a folder and at most `fuel` below it. -/
def searchUpTo (w : Workspace) (part : String) : Nat → String → Action (Option String)
  | 0, _ => return none
  | fuel + 1, folder => do
    let folder := String.ofList (Text.dropTrailing '/' folder.toList)
    if !(← get).isFolder (w.pathOf folder) then return none
    let listing ← w.list folder
    match listing.files.find? fun file => Text.hasPart part.toList file.toList with
    | some file => return some (folder ++ "/" ++ file)
    | none =>
      match listing.folders with
      | [] => return none
      | first :: _ => searchUpTo w part fuel (folder ++ "/" ++ first)

/-- The first file on the chain from a folder on whose name has the given part.  A chain has no more
folders than the disk has entries, and the folder it begins with. -/
def searchModule (w : Workspace) (folder part : String) : Action (Option String) := do
  searchUpTo w part ((← get).entries.length + 2) folder

end ModelGrid.AngularModule
