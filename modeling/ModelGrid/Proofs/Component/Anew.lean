import ModelGrid.Proofs.Component.Rerun
import ModelGrid.Proofs.Store.Failure
import ModelGrid.Proofs.Store.Temporary

/-!
# The interface, or what was there

The interface is written in two steps.  First its file is emptied: it is deleted and created anew.
Then the declaration is inserted, by way of the temporary file.  The first step is the same as writing
an empty text in place of the file (`on_writeInterface`), and it fails only where there is no place
for the file.  After it, nothing but the temporary file can be in the way, and the file is empty where
it is.

## Main definitions

* `Workspace.SameAt`: a path leads to the same file on two disks, or to a file on neither of them.

## Main results

* `ends_writeInterface_same`: the interface is written, or the file is the same as before, or it is
  empty and its temporary file cannot be written.
-/

namespace ModelGrid

namespace Store.Workspace

/-- The path leads to the same file on both disks, or to a file on neither of them. -/
def SameAt (w : Workspace) (path : String) (d after : Disk) : Prop :=
  ∀ l content, after.find (w.pathOf path) = .ok (l, .file content) ↔
    d.find (w.pathOf path) = .ok (l, .file content)

end Store.Workspace

namespace Component

open Edit Store Disk Action

variable {w : Workspace} {b : Blueprint} {ps : List Model.Property} {d after : Disk} {l : Location}

/-- What is done once the file of the interface is empty. -/
def declare (w : Workspace) (b : Blueprint) (ps : List Model.Property) : Action Unit := do
  let session ← w.session b.interfaceFile
  w.save (← Workspace.insert session 0 (Contribution.interfaceDeclaration b.modelName ps) .left)

/-- **Declaring the interface** in an empty file fails only where the temporary file is in the way. -/
theorem on_declare (leads : d.Leads (w.pathOf b.interfaceFile) l)
    (empty : d.entry? l = some (.file (.text ""))) :
    (declare w b ps).on d =
      match d.obstacle? l with
      | some why => (.error (.disk .write b.interfaceFile why), d)
      | none => (.ok (), d.replace (temporaryAt l) l
          (.text (Contribution.interfaceDeclaration b.modelName ps))) := by
  obtain ⟨s, accepted⟩ : ∃ s, (Session.start b.interfaceFile "").insert 0
      (Contribution.interfaceDeclaration b.modelName ps) .left = .ok s :=
    ⟨_, dif_pos (isBoundary_size "" "")⟩
  obtain ⟨same_path, applied⟩ := apply_insert_empty accepted
  have opened : (w.session b.interfaceFile).on d = (.ok (.start b.interfaceFile ""), d) :=
    session_eq_ok.mpr ⟨rfl, "", ⟨l, find_of_leads leads empty⟩, rfl⟩
  have inserted : (Workspace.insert (.start b.interfaceFile "") 0
      (Contribution.interfaceDeclaration b.modelName ps) .left).on d = (.ok s, d) :=
    insert_eq_ok.mpr ⟨rfl, accepted⟩
  have leads' : d.Leads (w.pathOf s.path) l := by
    have start_path : s.path = b.interfaceFile := same_path
    rwa [start_path]
  have saved := Workspace.on_save leads'
  rw [applied, same_path] at saved
  rw [declare, on_bind, opened]
  dsimp only
  rw [on_bind, inserted]
  exact saved

/-- Where a file is, it is emptied. -/
theorem on_overwrite_of_leads {path text : String} (leads : d.Leads (w.pathOf path) l)
    (parent : w.HasParent d path) :
    (w.overwrite path text).on d = (.ok (), d.put l (.file (.text text))) :=
  Workspace.overwrite_eq_ok_iff.mpr ⟨d, l, parent.makesWay, leads, rfl⟩

/-- **Writing the interface** is to empty its file and to declare the interface in it. -/
theorem on_writeInterface (w : Workspace) (b : Blueprint) (ps : List Model.Property) (d : Disk) :
    (writeInterface w b ps).on d =
      (w.overwrite b.interfaceFile "" >>= fun _ => declare w b ps).on d := by
  have create_eq {before : Disk} (no_file : w.hasFile b.interfaceFile before = false) :
      (w.create b.interfaceFile "").on before = (w.overwrite b.interfaceFile "").on before := by
    unfold Workspace.create
    rw [on_get_bind, no_file, if_neg Bool.false_ne_true]
  unfold writeInterface declare
  rw [on_get_bind]
  cases there : w.hasFile b.interfaceFile d with
  | false => rw [if_neg Bool.false_ne_true, on_bind, on_bind, create_eq there]
  | true =>
    obtain ⟨l, content, found⟩ : ∃ l content, d.find (w.pathOf b.interfaceFile) = .ok (l, .file content) := by
      rw [Workspace.hasFile, isFile] at there
      split at there
      next l content found => exact ⟨l, content, found⟩
      next => cases there
    -- the folders that lead to a file which is there are there, too, also once it is taken away
    have leads := leads_of_find found
    have parent := Workspace.hasParent_of_leads leads
    have same : SameFolders d (d.erase l) := sameFolders_erase leads.free
    have leads' := leads.of_sameFolders same
    have deleted : (w.delete b.interfaceFile).on d = (.ok (), d.erase l) :=
      Workspace.delete_eq_ok_iff.mpr ⟨l, content, leads, (find_eq_ok_file.mp found).2.1, rfl⟩
    have no_file : w.hasFile b.interfaceFile (d.erase l) = false := by
      rw [← Bool.not_eq_true, Workspace.hasFile_iff leads', entry?_erase leads.named]
      simp
    have emptied : (w.overwrite b.interfaceFile "").on (d.erase l) = (w.overwrite b.interfaceFile "").on d := by
      rw [on_overwrite_of_leads leads parent,
        on_overwrite_of_leads leads' (parent.of_changesWithin same.changesWithin), put_erase]
    rw [if_pos rfl, on_bind, deleted]
    dsimp only
    rw [on_bind, on_bind, create_eq no_file, emptied]

/-- **The interface, or what was there.**  Whatever is on the disk, the interface is in its file in the
end; or files are as they were, and the path leads to the same file as before, if to one; or the file
is empty and the write of its temporary file has failed, to which no path leads. -/
theorem ends_writeInterface_same (w : Workspace) (b : Blueprint) (ps : List Model.Property) (d : Disk) :
    (writeInterface w b ps).Ends d
      (fun _ after =>
        w.Holds after b.interfaceFile (Contribution.interfaceDeclaration b.modelName ps))
      fun fault after =>
        ChangesWithin ∅ d after ∧ w.SameAt b.interfaceFile d after ∨
          w.Holds after b.interfaceFile "" ∧ (∀ t, ¬ after.Leads (w.temporaryOf b.interfaceFile) t) ∧
            ∃ why, fault = .disk .write b.interfaceFile why := by
  refine ends_iff.mpr ⟨fun _ after run => ?_, fun fault after run => ?_⟩
  · obtain ⟨made, t, l, _, temporary, leads, rfl⟩ := writeInterface_eq_ok_iff.mp run
    have replaced := replaced_of_put (.text (Contribution.interfaceDeclaration b.modelName ps))
      (.text "") temporary leads
    exact ⟨l, find_of_leads (leads.of_sameFolders (replaced.sameFolders temporary leads)) replaced.file⟩
  · rw [on_writeInterface, on_bind] at run
    split at run
    next mid written =>
      obtain ⟨made, l, _, leads, rfl⟩ := Workspace.overwrite_eq_ok_iff.mp written
      have same : SameFolders made (made.put l (.file (.text ""))) := sameFolders_put leads.free
      have leads' := leads.of_sameFolders same
      have empty := entry?_put (d := made) (e := .file (.text "")) leads.named
      rw [on_declare leads' empty] at run
      split at run
      next why obstacle =>
        cases run
        refine .inr ⟨⟨l, find_of_leads leads' empty⟩, fun t temporary => ?_, why, rfl⟩
        rw [Workspace.leads_temporaryOf_iff leads', obstacle] at temporary
        cases temporary.1
      next => cases run
    next fault' after' failed =>
      cases run
      obtain ⟨changes, astray⟩ := Workspace.not_leads_of_overwrite failed
      refine .inl ⟨changes, fun l content => ⟨fun found => ?_, fun found => ?_⟩⟩
      · exact absurd (leads_of_find found) (astray l)
      · exact changes.find_eq found (Set.notMem_empty l)

/-- A component whose interface is in `src/app/user-list/user-dto.ts`. -/
def userListBlueprint : Blueprint :=
  ⟨"UserDto", "user-list", "src/app/user-list", "src/app/app.module.ts"⟩

/-- A disk with a file in the place of the component's folder. -/
def occupiedDisk : Disk where
  here := []
  entries :=
    [(["src"], .folder), (["src", "app"], .folder), (["src", "app", "user-list"], .file (.text "old"))]

/-- No folder can be made for the interface, which is not there before and after. -/
theorem ends_writeInterface_same_occupied :
    let w : Workspace := ⟨.ofString "/"⟩
    let file := userListBlueprint.interfaceFile
    ∃ after, (writeInterface w userListBlueprint []).on occupiedDisk =
        (.error (.disk .createFolderFor file .alreadyThere), after) ∧
      ChangesWithin ∅ occupiedDisk after ∧ w.SameAt file occupiedDisk after := by
  intro w file
  obtain ⟨after, run⟩ : ∃ after, (writeInterface w userListBlueprint []).on occupiedDisk =
      (.error (.disk .createFolderFor file .alreadyThere), after) :=
    ⟨_, eq_mk_of_fst_eq (by decide +kernel)⟩
  obtain same | ⟨_, _, why, other⟩ :=
    (ends_iff.mp (ends_writeInterface_same w userListBlueprint [] occupiedDisk)).2 _ after run
  · exact ⟨after, run, same⟩
  · cases other

/-- A disk with the interface of the component, and with a folder that has the name of its temporary
file. -/
def barredDisk : Disk where
  here := []
  entries :=
    [(["src"], .folder), (["src", "app"], .folder), (["src", "app", "user-list"], .folder),
      (["src", "app", "user-list", "user-dto.ts"], .file (.text "old")),
      (["src", "app", "user-list", "user-dto.ts.table-scaffold.tmp"], .folder)]

/-- **What was there may be lost.**  The file of the interface held a text, and is empty after the
interface could not be written. -/
theorem writeInterface_emptied :
    let w : Workspace := ⟨.ofString "/"⟩
    let file := userListBlueprint.interfaceFile
    file = "src/app/user-list/user-dto.ts" ∧ w.Holds barredDisk file "old" ∧
      ∃ after, (writeInterface w userListBlueprint [⟨"id", .number, "ID"⟩]).on barredDisk =
          (.error (.disk .write file .isFolder), after) ∧
        w.Holds after file "" ∧ ¬ w.SameAt file barredDisk after := by
  intro w file
  have leads : barredDisk.Leads (w.pathOf file) ["src", "app", "user-list", "user-dto.ts"] := by
    decide +kernel
  have there : barredDisk.entry? ["src", "app", "user-list", "user-dto.ts"] = some (.file (.text "old")) :=
    rfl
  have held := find_of_leads leads there
  have same : SameFolders barredDisk
      (barredDisk.put ["src", "app", "user-list", "user-dto.ts"] (.file (.text ""))) :=
    sameFolders_put leads.free
  have leads' := leads.of_sameFolders same
  have empty := entry?_put (d := barredDisk) (e := .file (.text "")) leads.named
  have holds := find_of_leads leads' empty
  have barred : Disk.obstacle?
      (barredDisk.put ["src", "app", "user-list", "user-dto.ts"] (.file (.text "")))
      ["src", "app", "user-list", "user-dto.ts"] = some .isFolder := by
    decide +kernel
  refine ⟨by decide +kernel, ⟨_, held⟩, _, ?_, ⟨_, holds⟩, fun same_at => ?_⟩
  · rw [on_writeInterface, on_bind, on_overwrite_of_leads leads (Workspace.hasParent_of_leads leads)]
    dsimp only
    rw [on_declare leads' empty, barred]
  · have found := (same_at _ _).mpr held
    rw [holds] at found
    simp at found

end Component

end ModelGrid
