import ModelGrid.Proofs.Store.Area
import ModelGrid.Proofs.Store.Tree

/-!
# Files as a map

To those who name files by plain paths, a workspace is a map from locations to contents.  An operation
that succeeds sets the content at the location of its path; one that fails sets nothing.  What is read
is what the map has.  Saving a session goes beyond this in one place, that of the temporary file.

## Main definitions

* `Disk.content?`: what the files of a disk hold, by their locations.
* `Operation`: the operations that change files.
* `Operation.run`: operations in turn, whether they succeed or not.
* `Contents.note`: the map after an operation.

## Main results

* `Operation.outcome_on`: what an operation does to the map.
* `Operation.content?_run`: what operations in turn do to it.
* `Operation.read_run`: a workspace is a map.
-/

namespace ModelGrid.Store

open Disk Store.Action

/-- What the file at a location holds, if there is one. -/
def Disk.content? (d : Disk) (l : Location) : Option Content :=
  match d.entry? l with
  | some (.file content) => some content
  | _ => none

namespace Disk

variable {S : Set Location} {d d' : Disk} {l x : Location} {content : Content}

theorem content?_eq_some : d.content? l = some content ↔ d.entry? l = some (.file content) := by
  rw [content?]
  split
  next there => simp [there]
  next no_file => simpa using no_file content

theorem content?_congr (same : d'.entry? l = d.entry? l) : d'.content? l = d.content? l := by
  rw [content?, content?, same]

theorem content?_put (named : l ≠ []) : (d.put l (.file content)).content? l = some content :=
  content?_eq_some.mpr (entry?_put named)

theorem content?_erase (named : l ≠ []) : (d.erase l).content? l = none := by
  rw [content?, entry?_erase named]

/-- Contents elsewhere are not changed. -/
theorem ChangesWithin.content?_eq (h : ChangesWithin S d d') (apart : x ∉ S) :
    d'.content? x = d.content? x := by
  cases there : d.entry? x with
  | some entry => exact content?_congr ((h.entry x apart entry there).trans there.symm)
  | none =>
    rcases h.made x apart there with free | made
    · exact content?_congr (free.trans there.symm)
    · rw [content?, content?, there, made]

end Disk

/-- An operation that changes files. -/
inductive Operation
  | overwrite (path text : String)
  | create (path text : String)
  | delete (path : String)
  | save (session : Edit.Session)

/-- What the files hold, by their locations. -/
abbrev Contents := Location → Option Content

namespace Operation

/-- The path of the file that is changed. -/
def path : Operation → String
  | overwrite path _ | create path _ | delete path => path
  | save session => session.path

/-- The operation in a workspace. -/
def action (w : Workspace) : Operation → Action Unit
  | overwrite path text => w.overwrite path text
  | create path text => w.create path text
  | delete path => w.delete path
  | save session => w.save session

/-- What the file holds after the operation has succeeded, if it is there. -/
def leaves : Operation → Option Content
  | overwrite _ text | create _ text => some (.text text)
  | delete _ => none
  | save session => some (.text session.apply)

/-- The location is that of the temporary file of a session that the operation saves. -/
def Beside (w : Workspace) (d : Disk) (x : Location) : Operation → Prop
  | save session => d.resolve (w.temporaryOf session.path) = .ok (.named x)
  | overwrite .. | create .. | delete _ => False

/-- Do operations in turn, also after one that fails, and note what each of them comes to. -/
def run (w : Workspace) : List Operation → Disk → List (Operation × Except Fault Unit) × Disk
  | [], d => ([], d)
  | op :: rest, d =>
    let (answer, mid) := (op.action w).on d
    let (log, last) := run w rest mid
    ((op, answer) :: log, last)

end Operation

/-- The contents after an operation with what it came to.  One that has failed leaves them as they
are. -/
def Contents.note (root : Location) (contents : Contents) : Operation × Except Fault Unit → Contents
  | (op, .ok _) => Function.update contents (locationOf root op.path) op.leaves
  | (_, .error _) => contents

namespace Contents

variable {root x : Location} {contents contents' : Contents} {op : Operation}
  {entry : Operation × Except Fault Unit}

theorem note_self (op : Operation) :
    note root contents (op, .ok ()) (locationOf root op.path) = op.leaves := Function.update_self ..

theorem note_of_ne (op : Operation) (ne : x ≠ locationOf root op.path) :
    note root contents (op, .ok ()) x = contents x := Function.update_of_ne ne ..

/-- What is noted at a location depends on what was there. -/
theorem note_congr (same : contents x = contents' x) :
    note root contents entry x = note root contents' entry x := by
  obtain ⟨op, fault | ⟨⟨⟩⟩⟩ := entry
  · exact same
  · by_cases here : x = locationOf root op.path
    · rw [here, note_self, note_self]
    · rw [note_of_ne op here, note_of_ne op here, same]

theorem foldl_note_congr {log : List (Operation × Except Fault Unit)} (same : contents x = contents' x) :
    log.foldl (note root) contents x = log.foldl (note root) contents' x := by
  induction log generalizing contents contents' with
  | nil => exact same
  | cons entry log ih => exact ih (note_congr same)

end Contents

namespace Operation

variable {w : Workspace} {root l x : Location} {d d' : Disk} {path text : String} {op : Operation}
  {s : Edit.Session}

/-! ### Operations one by one -/

/-- What an operation does: the root stays where it is, paths lead where they led, and apart from a
temporary file the contents are changed as is noted. -/
structure Outcome (w : Workspace) (root : Location) (op : Operation) (before : Disk)
    (answer : Except Fault Unit) (after : Disk) : Prop where
  rooted : w.Rooted root after
  folders : ChangesWithin .univ before after
  own : answer = .ok () → after.content? (locationOf root op.path) = op.leaves
  noted : ∀ x, ¬ op.Beside w after x →
    after.content? x = Contents.note root before.content? (op, answer) x

theorem isTree_madeFor (tree : d.IsTree) (w : Workspace) (path : String) : (w.madeFor path d).IsTree := by
  rw [Workspace.madeFor]
  split
  next parent _ => exact tree.createFolders parent
  next => exact tree

/-- Folders are made without a change of contents. -/
theorem outcome_madeFor (rooted : w.Rooted root d) (path : String) (fault : Fault) :
    Outcome w root op d (.error fault) (w.madeFor path d) := by
  have changes := Workspace.changesWithin_madeFor w path d
  exact ⟨rooted.of_changesWithin changes (isTree_madeFor rooted.tree w path),
    changes.mono (Set.empty_subset _), nofun, fun x _ => changes.content?_eq (Set.notMem_empty x)⟩

/-- Writing a file sets its content. -/
theorem ends_overwrite (rooted : w.Rooted root d) (plain : IsPlain op.path) (own : op.path = path)
    (leaves : op.leaves = some (.text text)) :
    (w.overwrite path text).Ends d (fun _ after => Outcome w root op d (.ok ()) after)
      fun fault after => Outcome w root op d (.error fault) after := by
  subst own
  have made := Workspace.changesWithin_madeFor w op.path d
  have tree := isTree_madeFor rooted.tree w op.path
  refine ((Workspace.ends_overwrite_made w op.path text d).mono ?_).weaken ?_
  · rintro _ _ ⟨l, leads, rfl⟩
    have rooted' := rooted.of_changesWithin made tree
    obtain rfl := rooted'.eq_locationOf plain leads
    have put : ChangesWithin {locationOf root op.path} (w.madeFor op.path d)
        ((w.madeFor op.path d).put (locationOf root op.path) (.file (.text text))) :=
      changesWithin_put leads.free
    have written : content? ((w.madeFor op.path d).put (locationOf root op.path) (.file (.text text)))
        (locationOf root op.path) = op.leaves := (content?_put leads.named).trans leaves.symm
    refine ⟨rooted'.of_changesWithin put (tree.put leads.resolve leads.free),
      (made.trans put).mono (Set.subset_univ _), fun _ => written, fun x _ => ?_⟩
    by_cases here : x = locationOf root op.path
    · rw [here, written, Contents.note_self]
    · rw [Contents.note_of_ne op here, put.content?_eq here, made.content?_eq (Set.notMem_empty x)]
  · rintro fault _ ⟨rfl, _⟩
    exact outcome_madeFor rooted op.path fault

/-- Nothing is done. -/
theorem outcome_of_same (rooted : w.Rooted root d) (fault : Fault) :
    Outcome w root op d (.error fault) d :=
  ⟨rooted, .refl _ _, nofun, fun _ _ => rfl⟩

/-- Whether there is a file, the contents tell. -/
theorem hasFile_eq (rooted : w.Rooted root d) (plain : IsPlain path) :
    w.hasFile path d = (d.content? (locationOf root path)).isSome := by
  rw [Bool.eq_iff_iff, Option.isSome_iff_exists]
  constructor
  · intro there
    rw [Workspace.hasFile, isFile] at there
    split at there
    next l content found => exact ⟨content, content?_eq_some.mpr ((rooted.find_iff plain).mp found).2⟩
    next => cases there
  · rintro ⟨content, there⟩
    rw [Workspace.hasFile, isFile, (rooted.find_iff plain).mpr ⟨rfl, content?_eq_some.mp there⟩]

/-- Taking a file away sets no content for it. -/
theorem ends_delete (rooted : w.Rooted root d) (plain : IsPlain path) :
    (w.delete path).Ends d (fun _ after => Outcome w root (.delete path) d (.ok ()) after)
      fun fault after => Outcome w root (.delete path) d (.error fault) after := by
  refine ends_iff.mpr ⟨fun _ after removed => ?_, fun fault after failed => ?_⟩
  · obtain ⟨l, content, leads, there, rfl⟩ := Workspace.delete_eq_ok_iff.mp removed
    obtain rfl := rooted.eq_locationOf plain leads
    have erased : ChangesWithin {locationOf root path} d (d.erase (locationOf root path)) :=
      changesWithin_erase leads.free
    have gone : content? (d.erase (locationOf root path)) (locationOf root path) = none :=
      content?_erase leads.named
    refine ⟨rooted.of_changesWithin erased (rooted.tree.erase leads.free),
      erased.mono (Set.subset_univ _), fun _ => gone, fun x _ => ?_⟩
    by_cases here : x = locationOf root path
    · rw [here]
      exact gone.trans (Contents.note_self (.delete path)).symm
    · exact (erased.content?_eq here).trans (Contents.note_of_ne (.delete path) here).symm
  · obtain ⟨rfl, _⟩ := change_eq_error failed
    exact outcome_of_same rooted fault

/-- A temporary file that is written and taken away changes no other content. -/
theorem outcome_erase_put {t : Location} (rooted : w.Rooted root d)
    (temporary : d.Leads (w.temporaryOf s.path) t) (fault : Fault) (content : Content) :
    Outcome w root (.save s) d (.error fault) ((d.put t (.file content)).erase t) := by
  have put : SameFolders d (d.put t (.file content)) := sameFolders_put temporary.free
  have temporary' := temporary.of_sameFolders put
  have same := put.trans (sameFolders_erase temporary'.free)
  have tree := (rooted.tree.put (e := .file content) temporary.resolve temporary.free).erase temporary'.free
  refine ⟨rooted.of_changesWithin same.changesWithin tree, same.changesWithin, nofun, fun x beside => ?_⟩
  have ne : x ≠ t := by
    rintro rfl
    exact beside (temporary.of_sameFolders same).resolve
  exact content?_congr (by rw [entry?_erase_of_ne ne, entry?_put_of_ne ne])

/-- Saving a session sets the content of its file. -/
theorem ends_save (rooted : w.Rooted root d) (plain : IsPlain s.path) :
    (w.save s).Ends d (fun _ after => Outcome w root (.save s) d (.ok ()) after)
      fun fault after => Outcome w root (.save s) d (.error fault) after := by
  refine ((Workspace.ends_save_replaced w s d).mono ?_).weaken ?_
  · rintro _ _ ⟨t, l, temporary, leads, rfl⟩
    obtain rfl := rooted.eq_locationOf plain leads
    have ne := ne_of_leads_append Workspace.temporarySuffix_ne temporary leads
    have replaced : Replaced t (locationOf root s.path) (.text s.apply) d
        (d.replace t (locationOf root s.path) (.text s.apply)) := replaced_replace temporary leads ne
    have same := replaced.sameFolders temporary leads
    have put : SameFolders d (d.put t (.file (.text s.apply))) := sameFolders_put temporary.free
    have temporary' := temporary.of_sameFolders put
    have erased := put.trans (sameFolders_erase temporary'.free)
    have leads' := leads.of_sameFolders erased
    have tree := ((rooted.tree.put (e := .file (.text s.apply)) temporary.resolve temporary.free).erase
      temporary'.free).put (e := .file (.text s.apply)) leads'.resolve leads'.free
    have written := content?_eq_some.mpr replaced.file
    refine ⟨rooted.of_changesWithin same.changesWithin tree, same.changesWithin, fun _ => written,
      fun x beside => ?_⟩
    have x_ne : x ≠ t := by
      rintro rfl
      exact beside (temporary.of_sameFolders same).resolve
    by_cases here : x = locationOf root s.path
    · rw [here]
      exact written.trans (Contents.note_self (.save s)).symm
    · exact (content?_congr (replaced.other x x_ne here)).trans (Contents.note_of_ne (.save s) here).symm
  · rintro fault _ ⟨rfl | ⟨t, temporary, rfl⟩, _⟩
    · exact outcome_of_same rooted fault
    · exact outcome_erase_put rooted temporary fault _

/-- **What an operation does**, whether it succeeds or fails. -/
theorem outcome_on (rooted : w.Rooted root d) (plain : IsPlain op.path) :
    Outcome w root op d ((op.action w).on d).1 ((op.action w).on d).2 := by
  have ends : (op.action w).Ends d (fun _ after => Outcome w root op d (.ok ()) after)
      fun fault after => Outcome w root op d (.error fault) after := by
    cases op with
    | overwrite path text =>
      show (w.overwrite path text).Ends d _ _
      exact ends_overwrite rooted plain rfl rfl
    | create path text =>
      refine ends_get_bind ?_
      split
      next => exact ends_throw_bind (outcome_of_same rooted _)
      next => exact ends_overwrite rooted plain rfl rfl
    | delete path => exact ends_delete rooted plain
    | save s => exact ends_save rooted plain
  obtain ⟨done, failed⟩ := ends_iff.mp ends
  rcases result : (op.action w).on d with ⟨fault | ⟨⟨⟩⟩, after⟩
  · exact failed fault after result
  · exact done () after result

/-- **A file is created** only where there is none. -/
theorem content?_of_create (rooted : w.Rooted root d) (plain : IsPlain path)
    (created : (w.create path text).on d = (.ok (), d')) : d.content? (locationOf root path) = none := by
  unfold Workspace.create at created
  rw [on_get_bind] at created
  cases there : w.hasFile path d with
  | true =>
    rw [there] at created
    obtain ⟨_, _, throwing, _⟩ := on_bind_eq_ok.mp created
    cases throwing
  | false =>
    rw [hasFile_eq rooted plain] at there
    simpa using there

/-! ### Operations in turn -/

variable {ops : List Operation}

@[simp] theorem run_nil (d : Disk) : run w [] d = ([], d) := rfl

@[simp] theorem run_cons (op : Operation) (rest : List Operation) (d : Disk) :
    run w (op :: rest) d =
      ((op, ((op.action w).on d).1) :: (run w rest ((op.action w).on d).2).1,
        (run w rest ((op.action w).on d).2).2) := rfl

/-- The root stays where it is, and paths lead where they led. -/
theorem rooted_run (rooted : w.Rooted root d) (plain : ∀ op ∈ ops, IsPlain op.path) :
    w.Rooted root (run w ops d).2 ∧ ChangesWithin .univ d (run w ops d).2 := by
  induction ops generalizing d with
  | nil => exact ⟨rooted, .refl _ _⟩
  | cons op rest ih =>
    have outcome := outcome_on rooted (plain op List.mem_cons_self)
    obtain ⟨rooted', changes⟩ := ih outcome.rooted fun other mem =>
      plain other (List.mem_cons_of_mem op mem)
    rw [run_cons]
    exact ⟨rooted', outcome.folders.trans_same changes⟩

/-- **The contents after operations** are those that are noted, where no temporary file is. -/
theorem content?_run (rooted : w.Rooted root d) (plain : ∀ op ∈ ops, IsPlain op.path)
    (apart : ∀ op ∈ ops, ¬ op.Beside w (run w ops d).2 x) :
    (run w ops d).2.content? x = (run w ops d).1.foldl (Contents.note root) d.content? x := by
  induction ops generalizing d with
  | nil => rfl
  | cons op rest ih =>
    have outcome := outcome_on rooted (plain op List.mem_cons_self)
    have plain_rest : ∀ other ∈ rest, IsPlain other.path :=
      fun other mem => plain other (List.mem_cons_of_mem op mem)
    rw [run_cons] at apart ⊢
    -- where the temporary file is after the operation, it is in the end
    have not_beside : ¬ op.Beside w ((op.action w).on d).2 x := by
      have at_end := apart op List.mem_cons_self
      have onward := (rooted_run outcome.rooted plain_rest).2
      cases op with
      | save s => exact fun beside => at_end (onward.resolve_eq beside)
      | overwrite | create | delete => exact id
    rw [ih outcome.rooted plain_rest fun other mem => apart other (List.mem_cons_of_mem op mem),
      List.foldl_cons]
    exact Contents.foldl_note_congr (outcome.noted x not_beside)

/-- The temporary file of a plain path is beside the path's location. -/
theorem eq_temporaryAt_of_beside (rooted : w.Rooted root d) (plain : IsPlain s.path)
    (named : segmentsBelow s.path ≠ []) (beside : (save s).Beside w d x) :
    x = temporaryAt (locationOf root s.path) := by
  obtain ⟨front, name, segments⟩ := (segmentsBelow s.path).eq_nil_or_concat'.resolve_left named
  have written : Path.segmentsOf s.path.toList ≠ [] := by
    rw [segmentsBelow] at named
    simpa using named
  have last : (w.pathOf s.path).segments = (w.root.segments ++ front) ++ [name] := by
    rw [w.segments_pathOf, ← segmentsBelow, segments, List.append_assoc]
  obtain ⟨_, _, on⟩ := resolve_eq_ok.mp beside
  rw [Workspace.temporaryOf_eq last (w.trailing_pathOf_of_open_end plain.open_end written)] at on
  dsimp only at on
  rw [w.absolute_pathOf, List.append_assoc, rooted.way.follow_append_eq (by simp)] at on
  rw [locationOf, segments, ← List.append_assoc, temporaryAt_concat, List.append_assoc]
  refine eq_append_of_follow (fun segment mem => ?_) on
  rcases List.mem_append.mp mem with above | at_end
  · exact plain.isPlain_segments segment (segments ▸ List.mem_append_left _ above)
  · rw [List.mem_singleton.mp at_end]
    exact ⟨Workspace.append_temporarySuffix_ne (by decide),
      Workspace.append_temporarySuffix_ne (by decide)⟩

/-- What reading comes to, by what the file holds. -/
def readOf (path : String) : Option Content → Except Fault String
  | some (.text text) => .ok text
  | some (.binary _) => .error (.fileUnreadable path .notText)
  | none => .error (.fileNotFound path)

/-- **Reading** tells the contents. -/
theorem on_read_of_rooted (rooted : w.Rooted root d) (plain : IsPlain path) :
    (w.read path).on d = (readOf path (d.content? (locationOf root path)), d) := by
  rw [Workspace.read, on_get_bind]
  cases held : d.content? (locationOf root path) with
  | some content =>
    rw [(rooted.find_iff plain).mpr ⟨rfl, content?_eq_some.mp held⟩]
    cases content with
    | text text => rfl
    | binary bytes => rfl
  | none =>
    have nowhere {l : Location} {content : Content}
        (found : d.find (w.pathOf path) = .ok (l, .file content)) : False := by
      have there := content?_eq_some.mpr ((rooted.find_iff plain).mp found).2
      rw [held] at there
      cases there
    split
    next found => exact (nowhere found).elim
    next found => exact (nowhere found).elim
    next => rfl

/-- **A workspace is a map** from locations to contents.  On a disk that is a tree, take operations in
turn, by plain paths, some of which may fail.  Each that succeeds leaves its content at the location of
its path and changes nothing elsewhere; each that fails changes nothing; except that saving a session may
change what is at the place of its temporary file, beside the file itself.  A file is created only where
there is none.  In the end, at a location where no temporary file is, what is read and whether there is a
file are told by the map in which the operations were noted. -/
theorem read_run {ops : List Operation} (tree : d.WellFormed)
    (found : d.find w.root = .ok (root, .folder)) (plain : ∀ op ∈ ops, IsPlain op.path) :
    (∀ front op back, ops = front ++ op :: back →
      let before := (run w front d).2
      let result := (op.action w).on before
      (result.1 = .ok () → result.2.content? (locationOf root op.path) = op.leaves) ∧
      (∀ x, result.2.content? x ≠ before.content? x →
        result.1 = .ok () ∧ x = locationOf root op.path ∨ op.Beside w result.2 x) ∧
      (∀ s x, op = .save s → segmentsBelow s.path ≠ [] → op.Beside w result.2 x →
        x = temporaryAt (locationOf root s.path)) ∧
      ∀ path text, op = .create path text → result.1 = .ok () →
        before.content? (locationOf root path) = none) ∧
    ∀ path, IsPlain path →
      let after := (run w ops d).2
      let held := (run w ops d).1.foldl (Contents.note root) d.content? (locationOf root path)
      (∀ op ∈ ops, ¬ op.Beside w after (locationOf root path)) →
      (w.read path).on after = (readOf path held, after) ∧ w.hasFile path after = held.isSome := by
  have rooted := Workspace.rooted_of_find tree found
  refine ⟨fun front op back whole => ?_, fun path path_plain => ?_⟩
  · intro before result
    have plain_front : ∀ other ∈ front, IsPlain other.path := fun other mem =>
      plain other (whole ▸ List.mem_append_left _ mem)
    have plain_op : IsPlain op.path := plain op (whole ▸ by simp)
    have rooted_before := (rooted_run rooted plain_front).1
    have outcome : Outcome w root op before result.1 result.2 := outcome_on rooted_before plain_op
    refine ⟨outcome.own, fun x changed => ?_, ?_, ?_⟩
    · refine or_iff_not_imp_right.mpr fun not_beside => ?_
      -- away from temporary files, what is noted is what is there
      have noted := outcome.noted x not_beside
      rcases answered : result.1 with fault | ⟨⟨⟩⟩
      · rw [answered] at noted
        exact absurd noted changed
      · rw [answered] at noted
        refine ⟨rfl, not_imp_comm.mp (fun elsewhere => ?_) changed⟩
        rw [noted, Contents.note_of_ne op elsewhere]
    · rintro s x rfl named beside
      exact eq_temporaryAt_of_beside outcome.rooted plain_op named beside
    · rintro path text rfl done
      exact content?_of_create rooted_before plain_op (eq_mk_of_fst_eq done)
  · intro after held apart
    have rooted_after := (rooted_run rooted plain).1
    have held_eq := content?_run rooted plain apart
    refine ⟨?_, ?_⟩
    · rw [on_read_of_rooted rooted_after path_plain, held_eq]
    · rw [hasFile_eq rooted_after path_plain, held_eq]

/-- A workspace with a file in a folder, and another file beside the folder. -/
def shelfDisk : Disk :=
  { here := []
    entries :=
      [(["w"], .folder), (["w", "a"], .folder), (["w", "a", "f"], .file (.text "x")),
        (["w", "b"], .file (.text "y"))] }

theorem wellFormed_shelfDisk : shelfDisk.WellFormed where
  once := by decide
  parent := by simp [shelfDisk, entry?]
  names := by
    simp only [shelfDisk, List.mem_cons, List.not_mem_nil, or_false]
    rintro entry (rfl | rfl | rfl | rfl) <;> decide +kernel

/-- Operations of which every other one fails: the file that is created is there, the folder that is
needed is a file, and the file that is deleted is gone. -/
theorem read_run_shelf :
    let w : Workspace := ⟨.ofString "/w/"⟩
    let ops : List Operation := [.create "a/f" "z", .overwrite "//n//g" "1", .overwrite "b/c" "2",
      .save (.start "n/g" "3"), .delete "a//f", .delete "a/f"]
    let after := (run w ops shelfDisk).2
    (∀ op ∈ ops, IsPlain op.path) ∧ (w.read "/n/g").on after = (.ok "3", after) ∧
      (w.read "a/f").on after = (.error (.fileNotFound "a/f"), after) ∧
      w.hasFile "b" after = true := by
  intro w ops after
  have plain : ∀ op ∈ ops, IsPlain op.path := by
    simp only [ops, List.mem_cons, List.not_mem_nil, or_false]
    rintro op (rfl | rfl | rfl | rfl | rfl | rfl) <;> decide +kernel
  have found : shelfDisk.find w.root = .ok (["w"], .folder) := rfl
  obtain ⟨_, reads⟩ := read_run wellFormed_shelfDisk found plain
  have rooted := (rooted_run (Workspace.rooted_of_find wellFormed_shelfDisk found) plain).1
  have apart {x : Location} (ne : x ≠ temporaryAt (locationOf ["w"] "n/g")) :
      ∀ op ∈ ops, ¬ op.Beside w after x := by
    simp only [ops, List.mem_cons, List.not_mem_nil, or_false]
    rintro op (rfl | rfl | rfl | rfl | rfl | rfl) beside
    · exact beside
    · exact beside
    · exact beside
    · exact ne (eq_temporaryAt_of_beside (s := .start "n/g" "3") rooted (by decide +kernel)
        (by decide +kernel) beside)
    · exact beside
    · exact beside
  obtain ⟨saved, _⟩ := reads "/n/g" (by decide +kernel) (apart (by decide +kernel))
  obtain ⟨deleted, _⟩ := reads "a/f" (by decide +kernel) (apart (by decide +kernel))
  obtain ⟨_, untouched⟩ := reads "b" (by decide +kernel) (apart (by decide +kernel))
  have told : readOf "/n/g" ((run w ops shelfDisk).1.foldl (Contents.note ["w"]) shelfDisk.content?
      (locationOf ["w"] "/n/g")) = .ok "3" := by decide +kernel
  have told' : readOf "a/f" ((run w ops shelfDisk).1.foldl (Contents.note ["w"]) shelfDisk.content?
      (locationOf ["w"] "a/f")) = .error (.fileNotFound "a/f") := by decide +kernel
  rw [told] at saved
  rw [told'] at deleted
  exact ⟨plain, saved, deleted, untouched.trans (by decide +kernel)⟩

end Operation

end ModelGrid.Store
