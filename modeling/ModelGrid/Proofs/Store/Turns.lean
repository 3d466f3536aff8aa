import ModelGrid.Proofs.Store.Area
import Mathlib.Data.List.Perm.Basic

/-!
# Actions in another order

Actions that succeed in turn succeed in any other order if each of them keeps to its own part of the disk,
and finds there what it found before.  Folders are what such actions share, since all paths are followed
through them.  An action that makes folders may come before others or after them: the disks on which an
action is done in one order or another lie between the first disk and the last one, with the folders of
the former and no others than those of the latter (`Disk.Between`).

Making folders goes by the files that are in the way, and these may be files that other actions edit.
Where there is no folder in the end, however, no folder was asked for (`Workspace.MakesWay.alike`).

## Main definitions

* `Disk.SameOutside S`: two disks differ in files at locations in `S` at most.
* `Disk.Between`: a disk has the folders of one disk, and no others than those of another.
* `Action.Settles`: an action leaves a part of the disk as it is on the last one, and all else alone.

## Main results

* `Workspace.MakesWay.alike`: folders are made alike, whatever files are elsewhere.
* `Action.inTurn_of_perm`: actions that settle different parts of a disk may be done in any order.
-/

namespace ModelGrid.Store

namespace Disk

variable {S : Set Location} {d d' e e' m made : Disk} {l : Location} {p : Path} {target : Target}

/-! ### Folders that are made on similar disks -/

/-- The disks have the same folders, and the same files outside of some locations. -/
structure SameOutside (S : Set Location) (d e : Disk) : Prop where
  folders : SameFolders d e
  entry : ∀ x ∉ S, e.entry? x = d.entry? x

namespace SameOutside

/-- A path that is missing on the first disk is so on the second one, if it leads somewhere once folders
are made, and those are outside of the locations where the disks differ. -/
theorem follow_eq_noEntry (h : SameOutside S d e) (grown : ChangesWithin ∅ d m)
    (no_folder : ∀ x ∈ S, m.entry? x ≠ some .folder) {start : Location} {segments : List String}
    (leads : m.follow start segments = .ok target)
    (missing : d.follow start segments = .error .noEntry) :
    e.follow start segments = .error .noEntry := by
  induction segments generalizing start with
  | nil => cases missing
  | cons segment rest ih =>
    obtain ⟨there, step⟩ := follow_cons_eq_ok.mp leads
    have outside : start ∉ S := fun mem => no_folder start mem there
    rw [follow.eq_def] at missing ⊢
    dsimp only at missing ⊢
    rw [h.entry start outside]
    cases before : d.entry? start with
    | none => rfl
    | some entry =>
      have kept := grown.entry start (Set.notMem_empty start) entry before
      rw [there] at kept
      cases kept
      rw [before] at missing
      obtain ⟨rfl, on⟩ | ⟨rfl, on⟩ | ⟨⟨not_dot, not_up, short⟩, ⟨rfl, _⟩ | ⟨more, on⟩⟩ := step
      · exact ih on (by simpa using missing)
      · exact ih on (by simpa using missing)
      · simp [not_dot, not_up, Nat.not_lt.mpr short] at missing
      · obtain ⟨next, later, rfl⟩ := List.exists_cons_of_ne_nil more
        simp only [beq_iff_eq, not_dot, not_up, gt_iff_lt, Nat.not_lt.mpr short, if_false] at missing ⊢
        exact ih on missing

/-- A folder that is made on the first disk, outside of the locations where the disks differ, is made on
the second one. -/
theorem createFolder (h : SameOutside S d e) (no_folder : ∀ x ∈ S, made.entry? x ≠ some .folder)
    (created : d.createFolder p = .ok made) :
    ∃ made', e.createFolder p = .ok made' ∧ SameOutside S made made' := by
  obtain ⟨l, leads, free, rfl⟩ := createFolder_eq_ok.mp created
  have named : l ≠ [] := ne_nil_of_entry?_ne (d := d) (by simp [free])
  have outside : l ∉ S := fun mem => no_folder l mem (entry?_put named)
  have free' := (h.entry l outside).trans free
  refine ⟨_, createFolder_eq_ok.mpr ⟨l, h.folders.changesWithin.resolve_eq leads, free', rfl⟩,
    ⟨h.folders.here, fun x => ?_⟩, fun x apart => ?_⟩
  · by_cases here : x = l
    · rw [here, entry?_put named, entry?_put named]
    · rw [entry?_put_of_ne here, entry?_put_of_ne here]
      exact h.folders.folder x
  · by_cases here : x = l
    · rw [here, entry?_put named, entry?_put named]
    · rw [entry?_put_of_ne here, entry?_put_of_ne here, h.entry x apart]

theorem createFolder_eq_noEntry (h : SameOutside S d e) (grown : ChangesWithin ∅ d m)
    (no_folder : ∀ x ∈ S, m.entry? x ≠ some .folder) (leads : m.resolve p = .ok target)
    (missing : d.createFolder p = .error .noEntry) : e.createFolder p = .error .noEntry := by
  obtain ⟨no_zero, something, on⟩ := resolve_eq_ok.mp leads
  have resolves (f : Disk) : f.resolve p = f.follow (if p.absolute then [] else f.here) p.segments := by
    have no_zero' : (p.segments.any fun segment => segment.toList.contains '\x00') = false := by
      simpa using no_zero
    rw [resolve, no_zero', something]
    rfl
  have unresolved : d.resolve p = .error .noEntry := by
    rw [Disk.createFolder] at missing
    split at missing
    next leads =>
      cases missing
      exact leads
    next => cases missing
    next =>
      split at missing
      next => cases missing
      next => cases missing
  rw [grown.here] at on
  rw [resolves] at unresolved
  have unresolved' := h.follow_eq_noEntry grown no_folder on unresolved
  rw [← h.folders.here, ← resolves] at unresolved'
  rw [Disk.createFolder, unresolved']

/-- **Folders are made alike** on disks that are the same outside of some locations, if none of these is
a folder in the end. -/
theorem createFoldersUpTo (h : SameOutside S d e) {fuel : Nat}
    (no_folder : ∀ x ∈ S, made.entry? x ≠ some .folder)
    (run : createFoldersUpTo fuel p d = (.ok (), made)) :
    ∃ made', Disk.createFoldersUpTo fuel p e = (.ok (), made') ∧ SameOutside S made made' := by
  induction fuel generalizing p made with
  | zero => cases run
  | succ fuel ih =>
    obtain ⟨nothing, rfl⟩ | ⟨something, created | ⟨there, rfl⟩ |
      ⟨missing, parent, mid, found, above, last⟩⟩ := createFoldersUpTo_succ_eq_ok.mp run
    · exact ⟨e, createFoldersUpTo_succ_eq_ok.mpr (.inl ⟨nothing, rfl⟩), h⟩
    · obtain ⟨made', created', same⟩ := h.createFolder no_folder created
      exact ⟨made', createFoldersUpTo_succ_eq_ok.mpr (.inr ⟨something, .inl created'⟩), same⟩
    · have there' := h.folders.changesWithin.isFolder there
      exact ⟨e, createFoldersUpTo_succ_eq_ok.mpr (.inr ⟨something, .inr (.inl ⟨there', rfl⟩)⟩), h⟩
    · have later : ChangesWithin ∅ mid made ∧ made.isFolder p = true := by
        rcases last with created | ⟨there, rfl⟩
        · exact ⟨changesWithin_createFolder created, isFolder_of_createFolder created⟩
        · exact ⟨.refl _ _, there⟩
      have grown : ChangesWithin ∅ d mid := by
        have kept := createFoldersUpTo_keeps (P := ChangesWithin ∅ d) (d := d)
          (fun so_far made => so_far.trans_same (changesWithin_createFolder made)) fuel parent (.refl ∅ d)
        rwa [above] at kept
      -- the folder above is missing on both disks, and made on both
      obtain ⟨target, leads⟩ : ∃ target, made.resolve p = .ok target := by
        obtain ⟨l, leads | ⟨leads, _⟩⟩ := isFolder_iff.mp later.2
        · exact ⟨_, leads⟩
        · exact ⟨_, leads⟩
      have missing' := h.createFolder_eq_noEntry (grown.trans_same later.1) no_folder leads missing
      obtain ⟨mid', above', same⟩ :=
        ih (fun x mem folder => no_folder x mem (later.1.folder x folder)) above
      rcases last with created | ⟨there, rfl⟩
      · obtain ⟨made', created', same'⟩ := same.createFolder no_folder created
        exact ⟨made', createFoldersUpTo_succ_eq_ok.mpr (.inr ⟨something, .inr (.inr
          ⟨missing', parent, mid', found, above', .inl created'⟩)⟩), same'⟩
      · have there' := same.folders.changesWithin.isFolder there
        exact ⟨mid', createFoldersUpTo_succ_eq_ok.mpr (.inr ⟨something, .inr (.inr
          ⟨missing', parent, mid', found, above', .inr ⟨there', rfl⟩⟩)⟩), same⟩

end SameOutside

/-! ### Disks between two others -/

/-- The disk has the folders of the first one, and no others than those of the last one.  Nothing is said
of files. -/
structure Between (first last d : Disk) : Prop where
  first : ChangesWithin .univ first d
  last : ChangesWithin .univ d last

/-- Folders that are there stay. -/
theorem changesWithin_univ (here : e.here = d.here)
    (folder : ∀ x, d.entry? x = some .folder → e.entry? x = some .folder) : ChangesWithin .univ d e :=
  ⟨here, folder, fun _ apart => absurd trivial apart, fun _ apart => absurd trivial apart⟩

/-- A change of one part of a disk, to what is there on the last one. -/
theorem Between.of_agreeOn (h : Between d d' e) (here : e'.here = e.here) (settled : AgreeOn S d' e')
    (stays : AgreeOn Sᶜ e e') : Between d d' e' := by
  have widens := h.first.trans_same h.last
  constructor
  · refine changesWithin_univ (here.trans h.first.here) fun x folder => ?_
    by_cases mem : x ∈ S
    · rw [← settled x mem]
      exact widens.folder x folder
    · rw [← stays x mem]
      exact h.first.folder x folder
  · refine changesWithin_univ (h.last.here.trans here.symm) fun x folder => ?_
    by_cases mem : x ∈ S
    · rwa [settled x mem]
    · rw [← stays x mem] at folder
      exact h.last.folder x folder

end Disk

open Disk

namespace Workspace

variable {w : Workspace} {S : Set Location} {d e made : Disk} {path : String}

/-- **Way is made alike** on disks that are the same outside of some locations, if none of these is a
folder in the end; nothing is changed there. -/
theorem MakesWay.alike (h : w.MakesWay path d made) (same : SameOutside S d e)
    (no_folder : ∀ x ∈ S, made.entry? x ≠ some .folder) :
    ∃ made', w.MakesWay path e made' ∧ SameOutside S made made' ∧ AgreeOn S e made' := by
  obtain ⟨made', way, same'⟩ : ∃ made', w.MakesWay path e made' ∧ SameOutside S made made' := by
    cases found : (w.pathOf path).parent? with
    | none =>
      obtain rfl := (makesWay_of_no_parent found).mp h
      exact ⟨e, (makesWay_of_no_parent found).mpr rfl, same⟩
    | some parent =>
      obtain ⟨made', run, same'⟩ := same.createFoldersUpTo no_folder ((makesWay_of_parent found).mp h)
      exact ⟨made', (makesWay_of_parent found).mpr run, same'⟩
  refine ⟨made', way, same', fun x mem => ?_⟩
  exact (way.changesWithin.entry?_eq (Set.notMem_empty x) fun folder =>
    no_folder x mem ((same'.folders.folder x).mp folder)).symm

end Workspace

namespace Action

variable {parts : List (Action Unit × Set Location)} {order : List (Action Unit)} {d d' e : Disk}

/-! ### Orders -/

theorem inTurn_append_eq_ok {front back : List (Action Unit)} :
    (inTurn (front ++ back)).on d = (.ok (), d') ↔
      ∃ mid, (inTurn front).on d = (.ok (), mid) ∧ (inTurn back).on mid = (.ok (), d') := by
  induction front generalizing d with
  | nil => simp [inTurn]
  | cons action rest ih =>
    constructor
    · intro run
      obtain ⟨⟨⟩, after, first, later⟩ := on_bind_eq_ok.mp run
      obtain ⟨mid, rest_run, back_run⟩ := ih.mp later
      exact ⟨mid, on_bind_eq_ok.mpr ⟨(), after, first, rest_run⟩, back_run⟩
    · rintro ⟨mid, front_run, back_run⟩
      obtain ⟨⟨⟩, after, first, later⟩ := on_bind_eq_ok.mp front_run
      exact on_bind_eq_ok.mpr ⟨(), after, first, ih.mpr ⟨mid, later, back_run⟩⟩

/-- Between the disks `d` and `d'`, wherever a part of the disk is as on `d`, the action succeeds and
leaves that part as on `d'`, and all else alone. -/
def Settles (action : Action Unit) (d d' : Disk) (S : Set Location) : Prop :=
  ∀ e, Between d d' e → AgreeOn S d e →
    ∃ e', action.on e = (.ok (), e') ∧ e'.here = e.here ∧ AgreeOn S d' e' ∧ AgreeOn Sᶜ e e'

/-- **Actions in turn** settle their parts of the disk, if the parts are different. -/
theorem inTurn_of_settles (settle : ∀ part ∈ parts, Settles part.1 d d' part.2)
    (apart : parts.Pairwise fun one other => ∀ x ∈ one.2, x ∉ other.2) (between : Between d d' e)
    (agree : ∀ part ∈ parts, AgreeOn part.2 d e) :
    ∃ after, (inTurn (parts.map Prod.fst)).on e = (.ok (), after) ∧
      (∀ part ∈ parts, AgreeOn part.2 d' after) ∧
      ∀ x, (∀ part ∈ parts, x ∉ part.2) → after.entry? x = e.entry? x := by
  induction parts generalizing e with
  | nil => exact ⟨e, rfl, by simp, fun _ _ => rfl⟩
  | cons part rest ih =>
    obtain ⟨apart_first, apart_rest⟩ := List.pairwise_cons.mp apart
    obtain ⟨e', run, here, settled, stays⟩ :=
      settle part List.mem_cons_self e between (agree part List.mem_cons_self)
    have agree_rest : ∀ other ∈ rest, AgreeOn other.2 d e' := by
      intro other mem x x_mem
      rw [agree other (List.mem_cons_of_mem part mem) x x_mem]
      exact stays x fun in_first => apart_first other mem x in_first x_mem
    obtain ⟨after, later, settled_rest, stays_rest⟩ :=
      ih (fun other mem => settle other (List.mem_cons_of_mem part mem)) apart_rest
        (between.of_agreeOn here settled stays) agree_rest
    refine ⟨after, on_bind_eq_ok.mpr ⟨(), e', run, later⟩, ?_, fun x outside => ?_⟩
    · intro other mem
      rcases List.mem_cons.mp mem with rfl | mem
      · intro x x_mem
        rw [settled x x_mem, stays_rest x fun third third_mem => apart_first third third_mem x x_mem]
      · exact settled_rest other mem
    · rw [stays_rest x fun other mem => outside other (List.mem_cons_of_mem part mem)]
      exact (stays x (outside part List.mem_cons_self)).symm

/-- Actions may be done in any order if they settle different parts of the disk, which make up all of
it. -/
theorem inTurn_of_cover (settle : ∀ part ∈ parts, Settles part.1 d d' part.2)
    (apart : parts.Pairwise fun one other => ∀ x ∈ one.2, x ∉ other.2)
    (cover : ∀ x, ∃ part ∈ parts, x ∈ part.2) (widens : ChangesWithin .univ d d')
    (perm : order.Perm (parts.map Prod.fst)) :
    ∃ after, (inTurn order).on d = (.ok (), after) ∧ ∀ x, after.entry? x = d'.entry? x := by
  obtain ⟨parts', rfl, perm'⟩ : ∃ parts' : List (Action Unit × Set Location),
      order = parts'.map Prod.fst ∧ parts'.Perm parts :=
    (congrFun₂ (List.eq_map_comp_perm Prod.fst) order parts).mpr perm
  have apart' : parts'.Pairwise fun one other => ∀ x ∈ one.2, x ∉ other.2 :=
    perm'.symm.pairwise apart fun disjoint x in_second in_first => disjoint x in_first in_second
  obtain ⟨after, run, settled, _⟩ :=
    inTurn_of_settles (fun part mem => settle part (perm'.mem_iff.mp mem)) apart'
      ⟨.refl _ d, widens⟩ fun _ _ _ _ => rfl
  refine ⟨after, run, fun x => ?_⟩
  obtain ⟨part, mem, x_mem⟩ := cover x
  exact (settled part (perm'.mem_iff.mpr mem) x x_mem).symm

/-- **Actions may be done in any order** if they settle different parts of the disk, and one of them all
the rest. -/
theorem inTurn_of_perm {last : Action Unit} (settle : ∀ part ∈ parts, Settles part.1 d d' part.2)
    (apart : parts.Pairwise fun one other => ∀ x ∈ one.2, x ∉ other.2)
    (rest : Settles last d d' {x | ∃ part ∈ parts, x ∈ part.2}ᶜ) (widens : ChangesWithin .univ d d')
    (perm : order.Perm (parts.map Prod.fst ++ [last])) :
    ∃ after, (inTurn order).on d = (.ok (), after) ∧ ∀ x, after.entry? x = d'.entry? x := by
  have parted : order.Perm
      ((parts ++ [(last, {x | ∃ part ∈ parts, x ∈ part.2}ᶜ)]).map Prod.fst) := by
    rwa [List.map_append]
  refine inTurn_of_cover ?_ ?_ ?_ widens parted
  · intro part mem
    rcases List.mem_append.mp mem with mem | mem
    · exact settle part mem
    · rw [List.mem_singleton.mp mem]
      exact rest
  · refine List.pairwise_append.mpr ⟨apart, List.pairwise_singleton _ _, ?_⟩
    intro part mem other other_mem x x_mem
    rw [List.mem_singleton.mp other_mem]
    exact fun outside => outside ⟨part, mem, x_mem⟩
  · intro x
    by_cases covered : ∃ part ∈ parts, x ∈ part.2
    · obtain ⟨part, mem, x_mem⟩ := covered
      exact ⟨part, List.mem_append_left _ mem, x_mem⟩
    · exact ⟨_, List.mem_append_right _ List.mem_cons_self, covered⟩

end Action

end ModelGrid.Store
