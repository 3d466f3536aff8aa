import ModelGrid.Component.Generate
import ModelGrid.Proofs.Store.Workspace

/-!
# What a run looks up

A run looks up its project, its module file and its model before it writes.  None of this changes the
disk, whether something is found or not.

## Main results

* `readsOnly_settle`: settling a blueprint.
* `readsOnly_readModel`: reading the model.
-/

namespace ModelGrid

open Store Store.Action

namespace AngularModule

theorem readsOnly_searchUpTo (w : Workspace) (part : String) (fuel : Nat) (folder : String) :
    (searchUpTo w part fuel folder).ReadsOnly := by
  induction fuel generalizing folder with
  | zero => exact readsOnly_pure _
  | succ fuel ih =>
    refine readsOnly_bind readsOnly_get fun d => ?_
    split
    next => exact readsOnly_pure _
    next =>
      refine readsOnly_bind (Workspace.readsOnly_list w _) fun listing => ?_
      split
      next => exact readsOnly_pure _
      next =>
        split
        next => exact readsOnly_pure _
        next => exact ih _

theorem readsOnly_searchModule (w : Workspace) (folder part : String) :
    (searchModule w folder part).ReadsOnly :=
  readsOnly_bind readsOnly_get fun _ => readsOnly_searchUpTo w part _ folder

end AngularModule

theorem Project.readsOnly_read (w : Workspace) (file name : String) :
    (Project.read w file name).ReadsOnly := by
  refine readsOnly_bind (readsOnly_tryCatch (Workspace.readsOnly_read w file) fun fault => ?_)
    fun text => ?_
  · split
    next => exact readsOnly_throw _
    next => exact readsOnly_throw _
  · split
    next => exact readsOnly_throw _
    next =>
      split
      next => exact readsOnly_throw _
      next => exact readsOnly_pure _

namespace Component

/-- **Settling a blueprint** touches no file. -/
theorem readsOnly_settle (w : Workspace) (settings : Settings) (request : Request) :
    (settle w settings request).ReadsOnly := by
  unfold settle
  dsimp only
  split
  next =>
    refine readsOnly_bind (Project.readsOnly_read w _ _) fun project => ?_
    refine readsOnly_bind (AngularModule.readsOnly_searchModule w _ _) fun found => ?_
    split
    next => exact readsOnly_pure _
    next => exact readsOnly_throw _
  next => exact readsOnly_throw _

theorem readsOnly_readText (path : String) : (readText path).ReadsOnly := by
  refine readsOnly_bind readsOnly_get fun d => ?_
  split
  next => exact readsOnly_pure _
  next => exact readsOnly_throw _
  next => exact readsOnly_throw _
  next => exact readsOnly_throw _

/-- **Reading the model** touches no file. -/
theorem readsOnly_readModel (path : String) : (readModel path).ReadsOnly := by
  refine readsOnly_bind (readsOnly_readText path) fun text => ?_
  split
  next => exact readsOnly_pure _
  next => exact readsOnly_throw _

end Component

end ModelGrid
