import ModelGrid.Store.Disk

/-!
# Differences of disks

## Main definitions

* `Content.same`: whether two files hold the same.
* `Disk.written`: the files and folders of a disk that another one does not have.
* `Disk.removed`: the locations where there is something only on another disk.
-/

namespace ModelGrid.Store

/-- Whether two files hold the same. -/
def Content.same : Content → Content → Bool
  | text a, text b => a == b
  | binary a, binary b => a.data == b.data
  | _, _ => false

/-- Whether two entries are the same. -/
def Entry.same : Entry → Entry → Bool
  | file a, file b => a.same b
  | folder, folder => true
  | _, _ => false

namespace Disk

/-- The files and folders of a disk that are not on an earlier one, or not with the same
content. -/
def written (before after : Disk) : List (Location × Entry) :=
  after.entries.filter fun (location, entry) =>
    !((before.entry? location).map entry.same).getD false

/-- The locations where there is something on an earlier disk and nothing on a later one. -/
def removed (before after : Disk) : List Location :=
  (before.entries.map Prod.fst).filter fun location => (after.entry? location).isNone

end Disk

end ModelGrid.Store
