import ModelGrid.Proofs.Component.Frame
import ModelGrid.Proofs.Component.Rerun
import ModelGrid.Proofs.Store.Tree
import ModelGrid.Proofs.Store.Turns

/-!
# The order of an assembly

The steps of an assembly may be done in any order, if their files are apart.  Three of them look at their
own file and at its temporary file, and change nothing else.  The last one writes its file anew, and makes
the folders that lead to it.  Such a folder may be in the way of a temporary file: made first, it makes an
edit fail that succeeds where it is made last.

## Main definitions

* `EditsOnly`: an action edits one file, and looks at no other.
* `fileEdits`: the steps of an assembly that edit a file, with the file.

## Main results

* `settles_of_inTurn`, `settles_writeInterface`: each step settles its part of the disk.
* `assemble_of_perm`, `assemble_of_perm_of_named`: an assembly in another order.
* `exists_perm_error`: an assembly that does not succeed in every order.
-/

namespace ModelGrid.Component

open Store Store.Action Store.Workspace Disk

variable {w : Workspace} {b : Blueprint} {formatting : Formatting} {ps : List Model.Property}
  {d d₀ d' mid : Disk} {path : String} {action : Action Unit} {S : Set Location}

/-! ### Edits that look at no other file -/

/-- The action edits one file, and looks at no other. -/
structure EditsOnly (w : Workspace) (path : String) (action : Action Unit) : Prop where
  edits : Edits w path action
  localTo : ∀ l, action.LocalTo (w.pathOf path) l

/-- A session of a file is opened, and what is done with it keeps to the file. -/
theorem localTo_of_session {next : Edit.Session → Action Unit} (l : Location)
    (rest : ∀ s, s.path = path → (next s).LocalTo (w.pathOf path) l) :
    (w.session path >>= next).LocalTo (w.pathOf path) l := by
  have opened (d : Disk) : (w.session path).Ends d (fun s _ => s.path = path) fun _ _ => True :=
    ((ends_session_late w path d).mono fun _ _ same => same.2).weaken fun _ _ _ => trivial
  exact localTo_bind (localTo_session w path l) opened rest

/-- What is planned for a session without a look at the disk is saved. -/
theorem localTo_planned {plan : Action Edit.Session} {l : Location}
    (planning : plan.LocalTo (w.pathOf path) l)
    (planned : ∀ d, plan.Ends d (fun s after => after = d ∧ s.path = path)
      fun fault after => after = d ∧ ¬ fault.Early) :
    (plan >>= w.save).LocalTo (w.pathOf path) l := by
  have kept (d : Disk) : plan.Ends d (fun s _ => s.path = path) fun _ _ => True :=
    ((planned d).mono fun _ _ same => same.2).weaken fun _ _ _ => trivial
  exact localTo_bind planning kept fun s same => same ▸ localTo_save w s l

theorem editsOnly_insertAt (w : Workspace) (path : String) (anchor : Edit.Anchor) (text : String) :
    EditsOnly w path (insertAt w path anchor text) where
  edits := edits_insertAt w path anchor text
  localTo l := by
    refine localTo_of_session l fun s same => ?_
    split
    next => exact localTo_throw _
    next offset _ =>
      exact localTo_planned (localTo_insert s offset text .right) fun d =>
        same ▸ ends_insert_late s offset text .right d

theorem localTo_insertAdditions {p : Path} {l : Location} (additions : List AngularModule.Addition)
    (s : Edit.Session) : (insertAdditions s additions).LocalTo p l := by
  induction additions generalizing s with
  | nil => exact localTo_pure s
  | cons addition rest ih => exact localTo_bind_of_forall (localTo_insert s _ _ _) ih

theorem editsOnly_register (w : Workspace) (b : Blueprint) : EditsOnly w b.moduleFile (register w b) where
  edits := edits_register w b
  localTo l := by
    refine localTo_of_session l fun s same => ?_
    exact localTo_planned (localTo_insertAdditions _ s) fun d =>
      same ▸ ends_insertAdditions_late _ s d

/-- An edit that succeeds replaces its file. -/
theorem EditsOnly.replaced (h : EditsOnly w path action) (run : action.on d = (.ok (), d')) :
    ∃ l content, Placed w d path (l, temporaryAt l) ∧ Replaced (temporaryAt l) l content d d' ∧
      SameFolders d d' := by
  obtain ⟨s, rfl, saved⟩ := (h.edits d).of_on run
  obtain ⟨t, l, temporary, leads, _, replaced, same⟩ := replaced_of_save saved
  obtain ⟨_, rfl⟩ := (leads_temporaryOf_iff leads).mp temporary
  exact ⟨l, _, ⟨leads, temporary⟩, replaced, same⟩

/-- An edit replaces its file where that has its place. -/
theorem EditsOnly.replaced_at {l : Location} (h : EditsOnly w path action)
    (placed : Placed w d path (l, temporaryAt l)) (run : action.on d = (.ok (), d')) :
    (∃ content, Replaced (temporaryAt l) l content d d') ∧ SameFolders d d' := by
  obtain ⟨l', content, placed', replaced, same⟩ := h.replaced run
  obtain rfl : l' = l := placed'.file.unique placed.file
  exact ⟨⟨content, replaced⟩, same⟩

/-! ### Edits in turn -/

section InTurn

variable {edits : List (String × Action Unit)} {place : String × Action Unit → Location}

/-- **Edits in turn** make no folders, and each of them has its place from the start. -/
theorem placed_of_inTurn (only : ∀ edit ∈ edits, EditsOnly w edit.1 edit.2)
    (run : (inTurn (edits.map Prod.snd)).on d = (.ok (), mid)) :
    SameFolders d mid ∧ ∀ edit ∈ edits, ∃ l, Placed w d edit.1 (l, temporaryAt l) := by
  induction edits generalizing d with
  | nil =>
    cases run
    exact ⟨.refl _, by simp⟩
  | cons edit rest ih =>
    obtain ⟨⟨⟩, after, first, later⟩ := on_bind_eq_ok.mp run
    obtain ⟨only_first, only_rest⟩ := List.forall_mem_cons.mp only
    obtain ⟨l, _, placed, _, same⟩ := only_first.replaced first
    obtain ⟨same_rest, placed_rest⟩ := ih only_rest later
    refine ⟨same.trans same_rest, List.forall_mem_cons.mpr ⟨⟨l, placed⟩, fun other mem => ?_⟩⟩
    obtain ⟨l', placed'⟩ := placed_rest other mem
    exact ⟨l', placed'.of_sameFolders same.symm⟩

/-- What is missing after edits in turn was missing before, or is a temporary file of theirs. -/
theorem missing_of_inTurn (only : ∀ edit ∈ edits, EditsOnly w edit.1 edit.2)
    (placed : ∀ edit ∈ edits, Placed w d edit.1 (place edit, temporaryAt (place edit)))
    (run : (inTurn (edits.map Prod.snd)).on d = (.ok (), mid)) {x : Location}
    (missing : mid.entry? x = none) :
    d.entry? x = none ∧ (∀ edit ∈ edits, x ≠ place edit) ∨
      ∃ edit ∈ edits, x = temporaryAt (place edit) := by
  induction edits generalizing d with
  | nil =>
    cases run
    exact .inl ⟨missing, by simp⟩
  | cons edit rest ih =>
    obtain ⟨⟨⟩, after, first, later⟩ := on_bind_eq_ok.mp run
    obtain ⟨only_first, only_rest⟩ := List.forall_mem_cons.mp only
    obtain ⟨placed_first, placed_rest⟩ := List.forall_mem_cons.mp placed
    obtain ⟨⟨content, replaced⟩, same⟩ := only_first.replaced_at placed_first first
    rcases ih only_rest (fun other mem => (placed_rest other mem).of_sameFolders same) later with
      ⟨missing', elsewhere⟩ | ⟨other, mem, at_other⟩
    · by_cases temporary : x = temporaryAt (place edit)
      · exact .inr ⟨edit, List.mem_cons_self, temporary⟩
      have not_file : x ≠ place edit := by
        rintro rfl
        rw [replaced.file] at missing'
        cases missing'
      rw [replaced.other x temporary not_file] at missing'
      exact .inl ⟨missing', List.forall_mem_cons.mpr ⟨not_file, elsewhere⟩⟩
    · exact .inr ⟨other, List.mem_cons_of_mem edit mem, at_other⟩

/-- **Edits in turn** leave all else alone. -/
theorem entry?_of_inTurn (only : ∀ edit ∈ edits, EditsOnly w edit.1 edit.2)
    (placed : ∀ edit ∈ edits, Placed w d edit.1 (place edit, temporaryAt (place edit)))
    (run : (inTurn (edits.map Prod.snd)).on d = (.ok (), mid)) {x : Location}
    (outside : ∀ edit ∈ edits, x ∉ editArea (place edit)) : mid.entry? x = d.entry? x := by
  induction edits generalizing d with
  | nil =>
    cases run
    rfl
  | cons edit rest ih =>
    obtain ⟨⟨⟩, after, first, later⟩ := on_bind_eq_ok.mp run
    obtain ⟨only_first, only_rest⟩ := List.forall_mem_cons.mp only
    obtain ⟨placed_first, placed_rest⟩ := List.forall_mem_cons.mp placed
    obtain ⟨outside_first, outside_rest⟩ := List.forall_mem_cons.mp outside
    obtain ⟨⟨content, replaced⟩, same⟩ := only_first.replaced_at placed_first first
    obtain ⟨not_file, not_temporary⟩ := not_or.mp outside_first
    rw [ih only_rest (fun other mem => (placed_rest other mem).of_sameFolders same) later outside_rest,
      replaced.other x not_temporary not_file]

/-- **Each of several edits settles its place**, from the disk `d₀` on, where its file is the same as
ahead of the edits, to the disk `d'`, where it is the same as behind them. -/
theorem settles_of_inTurn (only : ∀ edit ∈ edits, EditsOnly w edit.1 edit.2)
    (placed : ∀ edit ∈ edits, Placed w d edit.1 (place edit, temporaryAt (place edit)))
    (run : (inTurn (edits.map Prod.snd)).on d = (.ok (), mid))
    (apart : edits.Pairwise fun one other =>
      ∀ x ∈ editArea (place one), x ∉ editArea (place other))
    (same : SameFolders d₀ d) (ahead : ∀ edit ∈ edits, AgreeOn (editArea (place edit)) d₀ d)
    (behind : ∀ edit ∈ edits, AgreeOn (editArea (place edit)) mid d') :
    ∀ edit ∈ edits, Settles edit.2 d₀ d' (editArea (place edit)) := by
  induction edits generalizing d with
  | nil => simp
  | cons edit rest ih =>
    obtain ⟨⟨⟩, after, first, later⟩ := on_bind_eq_ok.mp run
    obtain ⟨only_first, only_rest⟩ := List.forall_mem_cons.mp only
    obtain ⟨placed_first, placed_rest⟩ := List.forall_mem_cons.mp placed
    obtain ⟨apart_first, apart_rest⟩ := List.pairwise_cons.mp apart
    obtain ⟨ahead_first, ahead_rest⟩ := List.forall_mem_cons.mp ahead
    obtain ⟨behind_first, behind_rest⟩ := List.forall_mem_cons.mp behind
    obtain ⟨⟨content, replaced⟩, same_first⟩ := only_first.replaced_at placed_first first
    have placed_later : ∀ other ∈ rest, Placed w after other.1 (place other, temporaryAt (place other)) :=
      fun other mem => (placed_rest other mem).of_sameFolders same_first
    refine List.forall_mem_cons.mpr ⟨fun e between agree => ?_, ?_⟩
    · -- the edit meets its file as it did, and comes to the same
      have localTo := only_first.localTo (place edit)
      have leads := placed_first.file
      have leads' : e.Leads (w.pathOf edit.1) (place edit) := by
        refine (leads.of_sameFolders same.symm).of_changesWithin between.first fun folder => leads.free ?_
        rw [← ahead_first _ (self_mem_editArea _), agree _ (self_mem_editArea _), folder]
      have agree' : AgreeOn (editArea (place edit)) d e :=
        fun x mem => (ahead_first x mem).symm.trans (agree x mem)
      obtain ⟨answers, settled⟩ := localTo.alike leads leads' agree'
      rw [first] at answers settled
      refine ⟨_, eq_mk_of_fst_eq answers.symm, (localTo.folders leads').here, fun x mem => ?_,
        fun x outside => (localTo.frame leads' x outside).symm⟩
      rw [← behind_first x mem, entry?_of_inTurn only_rest placed_later later
        fun other other_mem => apart_first other other_mem x mem]
      exact settled x mem
    · refine ih only_rest placed_later later apart_rest (same.trans same_first) ?_ behind_rest
      intro other mem x x_mem
      have outside : x ∉ editArea (place edit) := fun in_first => apart_first other mem x in_first x_mem
      obtain ⟨not_file, not_temporary⟩ := not_or.mp outside
      rw [ahead_rest other mem x x_mem, replaced.other x not_temporary not_file]

end InTurn

/-! ### The interface -/

/-- **An interface is written** once way is made for it, if the file may be replaced. -/
theorem writeInterface_of_makesWay {made : Disk} {l : Location} (ps : List Model.Property)
    (way : w.MakesWay b.interfaceFile d made)
    (placed : Placed w made b.interfaceFile (l, temporaryAt l)) :
    ∃ after, (writeInterface w b ps).on d = (.ok (), after) ∧
      Replaced (temporaryAt l) l (.text (Contribution.interfaceDeclaration b.modelName ps)) made after :=
  ⟨_, writeInterface_eq_ok_iff.mpr ⟨made, _, l, way, placed.temporary, placed.file, rfl⟩,
    replaced_of_put _ _ placed.temporary placed.file⟩

theorem replaced_of_writeInterface (run : (writeInterface w b ps).on d = (.ok (), d')) :
    ∃ made l, w.MakesWay b.interfaceFile d made ∧ Placed w made b.interfaceFile (l, temporaryAt l) ∧
      Replaced (temporaryAt l) l (.text (Contribution.interfaceDeclaration b.modelName ps)) made d' ∧
      SameFolders made d' := by
  obtain ⟨made, t, l, way, temporary, leads, rfl⟩ := writeInterface_eq_ok_iff.mp run
  obtain ⟨_, rfl⟩ := (leads_temporaryOf_iff leads).mp temporary
  have replaced := replaced_of_put (.text (Contribution.interfaceDeclaration b.modelName ps)) (.text "")
    temporary leads
  exact ⟨made, l, way, ⟨leads, temporary⟩, replaced, replaced.sameFolders temporary leads⟩

/-- **An interface settles all of the disk** outside of some locations, where other files are edited, if
none of these is a folder in the end. -/
theorem settles_writeInterface {made : Disk} {l : Location} (way : w.MakesWay b.interfaceFile mid made)
    (placed : Placed w made b.interfaceFile (l, temporaryAt l))
    (replaced : Replaced (temporaryAt l) l
      (.text (Contribution.interfaceDeclaration b.modelName ps)) made d')
    (same : SameFolders d mid) (outside : ∀ x ∉ S, mid.entry? x = d.entry? x)
    (no_folder : ∀ x ∈ S, made.entry? x ≠ some .folder) (apart : ∀ x ∈ S, x ∉ editArea l) :
    Settles (writeInterface w b ps) d d' Sᶜ := by
  have same_last := replaced.sameFolders placed.temporary placed.file
  intro e between agree
  have alike : SameOutside S mid e := by
    refine ⟨⟨between.first.here.trans same.here.symm, fun x => ?_⟩, fun x mem => ?_⟩
    · by_cases mem : x ∈ S
      · have in_first : mid.entry? x ≠ some .folder :=
          fun folder => no_folder x mem (way.changesWithin.folder x folder)
        have in_last : e.entry? x ≠ some .folder :=
          fun folder => no_folder x mem ((same_last.folder x).mp (between.last.folder x folder))
        simp [in_first, in_last]
      · rw [outside x mem, agree x mem]
    · rw [outside x mem, agree x mem]
  obtain ⟨made', way', same', kept⟩ := way.alike alike no_folder
  obtain ⟨e', run, replaced'⟩ := writeInterface_of_makesWay ps way'
    (placed.of_sameFolders same'.folders)
  refine ⟨e', run, replaced'.here.trans way'.changesWithin.here, fun x mem => ?_, fun x inside => ?_⟩
  · by_cases temporary : x = temporaryAt l
    · rw [temporary, replaced.temporary, replaced'.temporary]
    by_cases file : x = l
    · rw [file, replaced.file, replaced'.file]
    rw [replaced.other x temporary file, replaced'.other x temporary file, same'.entry x mem]
  · have mem : x ∈ S := Set.notMem_compl_iff.mp inside
    obtain ⟨not_file, not_temporary⟩ := not_or.mp (apart x mem)
    rw [replaced'.other x not_temporary not_file, kept x mem]

/-! ### Edits and an interface in any order -/

section Orders

variable {edits : List (String × Action Unit)} {place : String × Action Unit → Location}
  {order : List (Action Unit)}

/-- Where the files of edits and their temporary files are, there is no folder after the edits once others
are made, if there is none in the place of a temporary file. -/
theorem no_folder_of_inTurn {made : Disk} (only : ∀ edit ∈ edits, EditsOnly w edit.1 edit.2)
    (placed : ∀ edit ∈ edits, Placed w d edit.1 (place edit, temporaryAt (place edit)))
    (run : (inTurn (edits.map Prod.snd)).on d = (.ok (), mid)) (same : SameFolders d mid)
    (way : ChangesWithin ∅ mid made)
    (no_folder : ∀ edit ∈ edits, made.isFolder (w.temporaryOf edit.1) = false) :
    ∀ edit ∈ edits, ∀ x ∈ editArea (place edit), made.entry? x ≠ some .folder := by
  have temporary : ∀ edit ∈ edits, made.entry? (temporaryAt (place edit)) ≠ some .folder := by
    intro edit mem folder
    have leads := way.resolve_eq ((placed edit mem).of_sameFolders same).temporary.resolve
    have there := isFolder_iff.mpr ⟨_, .inr ⟨leads, folder⟩⟩
    rw [no_folder edit mem] at there
    cases there
  rintro edit mem x (rfl | rfl) folder
  · -- a folder that is made in the place of a file is made where the file is missing
    have free := ((placed edit mem).of_sameFolders same).file.free
    have missing : mid.entry? (place edit) = none := by
      cases before : mid.entry? (place edit) with
      | none => rfl
      | some entry =>
        have kept := way.entry _ (Set.notMem_empty _) entry before
        rw [folder] at kept
        cases kept
        exact absurd before free
    rcases missing_of_inTurn only placed run missing with ⟨_, elsewhere⟩ | ⟨other, other_mem, at_other⟩
    · exact elsewhere edit mem rfl
    · rw [at_other] at folder
      exact temporary other other_mem folder
  · exact temporary edit mem folder

/-- Files that are apart are edited in different places. -/
theorem places_apart {l : Location} (apart : (edits.map Prod.fst ++ [path]).Pairwise (w.Apart d))
    (leads : ∀ edit ∈ edits, d.Leads (w.pathOf edit.1) (place edit))
    (leads_last : d.Leads (w.pathOf path) l) :
    (edits.Pairwise fun one other => ∀ x ∈ editArea (place one), x ∉ editArea (place other)) ∧
      ∀ edit ∈ edits, ∀ x ∈ editArea (place edit), x ∉ editArea l := by
  obtain ⟨apart_edits, _, apart_last⟩ := List.pairwise_append.mp apart
  refine ⟨(List.pairwise_map.mp apart_edits).imp_of_mem fun mem mem' files =>
    files.disjoint (leads _ mem) (leads _ mem'), fun edit mem => ?_⟩
  exact (apart_last edit.1 (List.mem_map_of_mem mem) path List.mem_cons_self).disjoint (leads edit mem)
    leads_last

/-- **Edits and an interface** may be done in any order, if their files are apart and none of the folders
that lead to the interface is in the place of a temporary file. -/
theorem inTurn_edits_of_perm (only : ∀ edit ∈ edits, EditsOnly w edit.1 edit.2)
    (run : (inTurn (edits.map Prod.snd ++ [writeInterface w b ps])).on d = (.ok (), d'))
    (apart : (edits.map Prod.fst ++ [b.interfaceFile]).Pairwise (w.Apart d'))
    (no_folder : ∀ edit ∈ edits, d'.isFolder (w.temporaryOf edit.1) = false)
    (perm : order.Perm (edits.map Prod.snd ++ [writeInterface w b ps])) :
    ∃ after, (inTurn order).on d = (.ok (), after) ∧ ∀ x, after.entry? x = d'.entry? x := by
  obtain ⟨mid, editing, last⟩ := inTurn_append_eq_ok.mp run
  obtain ⟨⟨⟩, _, describing, rest⟩ := on_bind_eq_ok.mp last
  cases rest
  obtain ⟨same, places⟩ := placed_of_inTurn only editing
  choose! place placed using places
  obtain ⟨made, l, way, placed_last, replaced, same_last⟩ := replaced_of_writeInterface describing
  have widens := (same.changesWithin.trans_same
    (way.changesWithin.mono (Set.empty_subset _))).trans_same same_last.changesWithin
  have free := no_folder_of_inTurn only placed editing same way.changesWithin fun edit mem =>
    Bool.eq_false_iff.mpr fun there => by
      have kept := same_last.changesWithin.isFolder there
      rw [no_folder edit mem] at kept
      cases kept
  -- the files are edited in different places, which the interface leaves alone
  obtain ⟨apart_edits, apart_last⟩ := places_apart apart
    (fun edit mem => (placed edit mem).file.of_changesWithin widens fun folder =>
      free edit mem _ (self_mem_editArea _) ((same_last.folder _).mp folder))
    (placed_last.file.of_sameFolders same_last)
  have behind : ∀ edit ∈ edits, AgreeOn (editArea (place edit)) mid d' := by
    intro edit mem x x_mem
    obtain ⟨not_file, not_temporary⟩ := not_or.mp (apart_last edit mem x x_mem)
    rw [replaced.other x not_temporary not_file]
    exact (way.changesWithin.entry?_eq (Set.notMem_empty x) (free edit mem x x_mem)).symm
  have edits_settle := settles_of_inTurn only placed editing apart_edits (.refl d)
    (fun _ _ _ _ => rfl) behind
  have parts_map : (edits.map fun edit => (edit.2, editArea (place edit))).map Prod.fst =
      edits.map Prod.snd := by
    rw [List.map_map]
    rfl
  rw [← parts_map] at perm
  refine inTurn_of_perm (List.forall_mem_map.mpr edits_settle) (List.pairwise_map.mpr apart_edits) ?_
    widens perm
  refine settles_writeInterface way placed_last replaced same (fun x outside => ?_) ?_ ?_
  · exact entry?_of_inTurn only placed editing fun edit mem inside =>
      outside ⟨_, List.mem_map_of_mem mem, inside⟩
  · rintro x ⟨_, mem, inside⟩
    obtain ⟨edit, edit_mem, rfl⟩ := List.mem_map.mp mem
    exact free edit edit_mem x inside
  · rintro x ⟨_, mem, inside⟩
    obtain ⟨edit, edit_mem, rfl⟩ := List.mem_map.mp mem
    exact apart_last edit edit_mem x inside

/-! ### An assembly in any order -/

/-- The steps of an assembly that edit a file, with the file. -/
def fileEdits (w : Workspace) (b : Blueprint) (formatting : Formatting) (ps : List Model.Property) :
    List (String × Action Unit) :=
  [(b.serviceFile, addColumns w b ps), (b.constantsFile, addRow w b formatting ps),
    (b.moduleFile, register w b)]

theorem steps_eq (w : Workspace) (b : Blueprint) (formatting : Formatting) (ps : List Model.Property) :
    steps w b formatting ps = (fileEdits w b formatting ps).map Prod.snd ++ [writeInterface w b ps] := rfl

theorem editsOnly_of_mem {edit : String × Action Unit} (mem : edit ∈ fileEdits w b formatting ps) :
    EditsOnly w edit.1 edit.2 := by
  simp only [fileEdits, List.mem_cons, List.not_mem_nil, or_false] at mem
  rcases mem with rfl | rfl | rfl
  · exact editsOnly_insertAt w _ _ _
  · exact editsOnly_insertAt w _ _ _
  · exact editsOnly_register w b

/-- **An assembly in any order.**  An assembly succeeds, and leaves its files where they are apart, none
of them the temporary file of another; and none of the folders that it made for the interface is in the
place of a temporary file of the others.  Then its steps succeed in each other order, too, and whatever is
on the disk afterwards is as in the order of the assembly. -/
theorem assemble_of_perm (run : (assemble w b formatting ps).on d = (.ok (), d'))
    (apart : (b.edited ++ [b.interfaceFile]).Pairwise (w.Apart d'))
    (no_folder : ∀ path ∈ b.edited, d'.isFolder (w.temporaryOf path) = false)
    (perm : order.Perm (steps w b formatting ps)) :
    ∃ after, (inTurn order).on d = (.ok (), after) ∧ ∀ l, after.entry? l = d'.entry? l := by
  rw [assemble_eq_inTurn, steps_eq] at run
  rw [steps_eq] at perm
  refine inTurn_edits_of_perm (fun _ mem => editsOnly_of_mem mem) run apart
    (fun edit mem => no_folder edit.1 ?_) perm
  exact List.mem_map_of_mem (f := Prod.fst) mem

/-- Paths without dots are apart if their segments are. -/
theorem pairwise_apart_of_segments {paths : List String}
    (plain : ∀ path ∈ paths, (w.pathOf path).absolute = true ∧
      ∀ segment ∈ (w.pathOf path).segments, segment ≠ "." ∧ segment ≠ "..")
    (apart : paths.Pairwise fun one other => (w.pathOf one).segments ≠ (w.pathOf other).segments ∧
      (w.pathOf one).segments ≠ temporaryAt (w.pathOf other).segments ∧
      temporaryAt (w.pathOf one).segments ≠ (w.pathOf other).segments) :
    paths.Pairwise (w.Apart d) := by
  have located {path : String} {l : Location} (mem : path ∈ paths) (leads : d.Leads (w.pathOf path) l) :
      l = (w.pathOf path).segments := by
    obtain ⟨absolute, no_dots⟩ := plain path mem
    have on := (resolve_eq_ok.mp leads.resolve).2.2
    rw [absolute, if_pos rfl] at on
    have whole := eq_append_of_follow no_dots on
    rwa [List.nil_append] at whole
  refine apart.imp_of_mem fun mem mem' files l l' leads leads' => ?_
  rw [located mem leads, located mem' leads']
  exact files

/-- An assembly makes no folders if the one of the interface is there. -/
theorem sameFolders_of_assemble (parent : w.HasParent d b.interfaceFile)
    (run : (assemble w b formatting ps).on d = (.ok (), d')) : SameFolders d d' := by
  obtain ⟨⟨⟩, _, addingColumns, run⟩ := on_bind_eq_ok.mp run
  obtain ⟨⟨⟩, _, addingRow, run⟩ := on_bind_eq_ok.mp run
  obtain ⟨⟨⟩, _, registering, describing⟩ := on_bind_eq_ok.mp run
  have edited := ((sameFolders_of_insertAt addingColumns).trans (sameFolders_of_insertAt addingRow)).trans
    (sameFolders_of_register registering)
  have parent_edited := parent.of_changesWithin edited.changesWithin
  exact edited.trans (sameFolders_of_writeInterface parent_edited describing)

/-- A component with files of no more than the places for its insertions. -/
def editableDisk : Disk :=
  { here := []
    entries :=
      [(["s"], .folder), (["s", "x"], .folder),
       (["s", "x", "x-data.service.ts"], .file (.text "return;")),
       (["s", "x", "x.component.constants.ts"], .file (.text "()=>\x7b\x7d;")),
       (["app.module.ts"], .file (.text "@NgModule(\x7b\x7d)"))] }

/-- The steps are done backwards. -/
theorem assemble_of_perm_reverse :
    let w : Workspace := ⟨.ofString "/"⟩
    ∃ after, (inTurn (steps w bareBlueprint {} []).reverse).on editableDisk = (.ok (), after) ∧
      ∀ l, entry? after l = entry? ((assemble w bareBlueprint {} []).on editableDisk).2 l := by
  intro w
  have run : (assemble w bareBlueprint {} []).on editableDisk =
      (.ok (), ((assemble w bareBlueprint {} []).on editableDisk).2) :=
    eq_mk_of_fst_eq (by decide +kernel)
  have parent : w.HasParent editableDisk bareBlueprint.interfaceFile := by
    refine fun parent found => .inr ?_
    cases found
    decide +kernel
  have same := sameFolders_of_assemble parent run
  refine assemble_of_perm run (pairwise_apart_of_segments ?_ ?_) (fun path mem => ?_) (List.reverse_perm _)
  · decide +kernel
  · decide +kernel
  · have nothing : ∀ path ∈ bareBlueprint.edited,
        editableDisk.isFolder (w.temporaryOf path) = false := by decide +kernel
    rw [same.isFolder_eq, nothing path mem]

/-- A component whose interface goes to a folder in the place of a temporary file. -/
def obstructingBlueprint : Blueprint :=
  { bareBlueprint with modelName := "x-data.service.ts.table-scaffold.tmp/y" }

/-- **Not every order will do** where a folder is made in the place of a temporary file: with the
interface last, the assembly succeeds, and leaves four files that are apart; with the interface first, the
columns are not added. -/
theorem exists_perm_error :
    let w : Workspace := ⟨.ofString "/"⟩
    let b := obstructingBlueprint
    let after := ((assemble w b {} []).on editableDisk).2
    ((assemble w b {} []).on editableDisk).1 = .ok () ∧
      (∀ path ∈ b.edited ++ [b.interfaceFile], w.hasFile path after = true) ∧
      (b.edited ++ [b.interfaceFile]).Pairwise (w.Apart after) ∧
      ∃ order : List (Action Unit), order.Perm (steps w b {} []) ∧
        ((inTurn order).on editableDisk).1 = .error (.disk .write b.serviceFile .isFolder) := by
  intro w b after
  obtain ⟨succeeds, present, plain, apart, fails⟩ :
      ((assemble w b {} []).on editableDisk).1 = .ok () ∧
      (∀ path ∈ b.edited ++ [b.interfaceFile], w.hasFile path after = true) ∧
      (∀ path ∈ b.edited ++ [b.interfaceFile], (w.pathOf path).absolute = true ∧
        ∀ segment ∈ (w.pathOf path).segments, segment ≠ "." ∧ segment ≠ "..") ∧
      ((b.edited ++ [b.interfaceFile]).Pairwise fun one other =>
        (w.pathOf one).segments ≠ (w.pathOf other).segments ∧
        (w.pathOf one).segments ≠ temporaryAt (w.pathOf other).segments ∧
        temporaryAt (w.pathOf one).segments ≠ (w.pathOf other).segments) ∧
      ((inTurn [writeInterface w b [], addColumns w b [], addRow w b {} [], register w b]).on
        editableDisk).1 = .error (.disk .write b.serviceFile .isFolder) := by decide +kernel
  exact ⟨succeeds, present, pairwise_apart_of_segments plain apart,
    [writeInterface w b [], addColumns w b [], addRow w b {} [], register w b],
    (List.perm_append_singleton (writeInterface w b [])
      [addColumns w b [], addRow w b {} [], register w b]).symm, fails⟩

/-- **An assembly in any order** for a model whose name has no slash in it: the interface is in the folder
of the data service then, and no folder is made. -/
theorem assemble_of_perm_of_named (named : ∀ c ∈ b.modelName.toList, Naming.IsNameChar c)
    (run : (assemble w b formatting ps).on d = (.ok (), d'))
    (apart : (b.edited ++ [b.interfaceFile]).Pairwise (w.Apart d'))
    (perm : order.Perm (steps w b formatting ps)) :
    ∃ after, (inTurn order).on d = (.ok (), after) ∧ ∀ l, after.entry? l = d'.entry? l := by
  have only : ∀ edit ∈ fileEdits w b formatting ps, EditsOnly w edit.1 edit.2 :=
    fun _ mem => editsOnly_of_mem mem
  have in_turn := run
  rw [assemble_eq_inTurn, steps_eq] at in_turn
  rw [steps_eq] at perm
  obtain ⟨mid, editing, _⟩ := inTurn_append_eq_ok.mp in_turn
  obtain ⟨_, places⟩ := placed_of_inTurn only editing
  obtain ⟨_, service⟩ := places (b.serviceFile, addColumns w b ps) List.mem_cons_self
  have same := sameFolders_of_assemble (hasParent_interfaceFile named service.file) run
  refine inTurn_edits_of_perm only in_turn apart (fun edit mem => ?_) perm
  obtain ⟨_, placed⟩ := places edit mem
  rw [same.isFolder_eq, placed.temporary.isFolder_eq_false]

end Orders

end ModelGrid.Component
