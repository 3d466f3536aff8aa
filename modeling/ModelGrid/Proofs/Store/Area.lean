import ModelGrid.Proofs.Store.Temporary

/-!
# What an edit reads and writes

Edits of a file look at the file and at its temporary file, and change nothing else.  What they come to
is the same on any two disks that agree in these two places, provided that the path leads to the file on
both; so edits of different files do not get in each other's way, in whatever order they are done.

## Main definitions

* `Disk.AgreeOn`: disks that have the same at some locations.
* `editArea`: where the edit of a file reads and writes.
* `Action.LocalTo`: an action reads and writes there only.

## Main results

* `Action.localTo_bind`: two actions are local where each of them is.
* `Workspace.localTo_read`, `Workspace.localTo_session`, `Workspace.localTo_insert`,
  `Workspace.localTo_save`: the operations on a session are local.
* `Workspace.Apart.disjoint`: files that are apart are edited in different places.
-/

namespace ModelGrid.Store

open Disk

/-- The disks have the same at the locations. -/
def Disk.AgreeOn (S : Set Location) (d e : Disk) : Prop := ∀ x ∈ S, d.entry? x = e.entry? x

/-- Where the edit of the file at a location reads and writes. -/
def editArea (l : Location) : Set Location := {l, temporaryAt l}

theorem self_mem_editArea (l : Location) : l ∈ editArea l := .inl rfl

theorem temporaryAt_mem_editArea (l : Location) : temporaryAt l ∈ editArea l := .inr rfl

namespace Action

variable {α β : Type} {action : Action α} {next : α → Action β} {p : Path} {l : Location}

/-- The action looks at the place of an edit only, and changes nothing elsewhere and no folder at all,
on every disk on which the path leads to that place. -/
structure LocalTo (p : Path) (l : Location) (action : Action α) : Prop where
  alike : ∀ {d e : Disk}, d.Leads p l → e.Leads p l → AgreeOn (editArea l) d e →
    (action.on d).1 = (action.on e).1 ∧ AgreeOn (editArea l) (action.on d).2 (action.on e).2
  folders : ∀ {d : Disk}, d.Leads p l → SameFolders d (action.on d).2
  frame : ∀ {d : Disk}, d.Leads p l → AgreeOn (editArea l)ᶜ (action.on d).2 d

/-- What does not look at the disk is local. -/
theorem LocalTo.of_still {result : Except Fault α} (still : ∀ d, action.on d = (result, d)) :
    action.LocalTo p l where
  alike _ _ agree := by
    rw [still, still]
    exact ⟨rfl, agree⟩
  folders _ := by rw [still]
  frame _ _ _ := by rw [still]

theorem localTo_pure (a : α) : (pure a : Action α).LocalTo p l := .of_still (on_pure a)

theorem localTo_throw (fault : Fault) : (throw fault : Action α).LocalTo p l :=
  .of_still (on_throw fault)

/-- **Two actions** are local where each of them is, the second one with what the first one comes to. -/
theorem localTo_bind {good : α → Prop} (first : action.LocalTo p l)
    (ends : ∀ d, action.Ends d (fun a _ => good a) fun _ _ => True)
    (rest : ∀ a, good a → (next a).LocalTo p l) : (action >>= next).LocalTo p l := by
  have comes_to {d d' : Disk} {a : α} (run : action.on d = (.ok a, d')) : good a :=
    (ends_iff.mp (ends d)).1 a d' run
  refine ⟨fun {d e} leads leads' agree => ?_, fun {d} leads => ?_, fun {d} leads x outside => ?_⟩
  · have ⟨answers, agree_mid⟩ := first.alike leads leads' agree
    have leads_mid := leads.of_sameFolders (first.folders leads)
    have leads_mid' := leads'.of_sameFolders (first.folders leads')
    rw [on_bind, on_bind]
    rcases run : action.on d with ⟨fault | a, mid⟩
    · rcases run' : action.on e with ⟨fault' | a', mid'⟩
      · rw [run, run'] at answers agree_mid
        cases answers
        exact ⟨rfl, agree_mid⟩
      · rw [run, run'] at answers
        cases answers
    · rcases run' : action.on e with ⟨fault' | a', mid'⟩
      · rw [run, run'] at answers
        cases answers
      · rw [run, run'] at answers agree_mid
        rw [run] at leads_mid
        rw [run'] at leads_mid'
        cases answers
        exact (rest a (comes_to run)).alike leads_mid leads_mid' agree_mid
  · have same := first.folders leads
    have leads_mid := leads.of_sameFolders same
    rw [on_bind]
    rcases run : action.on d with ⟨fault | a, mid⟩
    · rwa [run] at same
    · rw [run] at same leads_mid
      exact same.trans ((rest a (comes_to run)).folders leads_mid)
  · have stays := first.frame leads x outside
    have leads_mid := leads.of_sameFolders (first.folders leads)
    rw [on_bind]
    rcases run : action.on d with ⟨fault | a, mid⟩
    · rwa [run] at stays
    · rw [run] at stays leads_mid
      exact ((rest a (comes_to run)).frame leads_mid x outside).trans stays

theorem localTo_bind_of_forall (first : action.LocalTo p l) (rest : ∀ a, (next a).LocalTo p l) :
    (action >>= next).LocalTo p l := by
  have anything (d : Disk) : action.Ends d (fun _ _ => True) fun _ _ => True :=
    ends_iff.mpr ⟨fun _ _ _ => trivial, fun _ _ _ => trivial⟩
  exact localTo_bind first anything fun a _ => rest a

end Action

namespace Workspace

open Store.Action

variable {w : Workspace} {d : Disk} {path path' : String} {l l' : Location}

/-- **What reading comes to** where the path leads to a file, or to where one may be. -/
theorem on_read (leads : d.Leads (w.pathOf path) l) :
    (w.read path).on d =
      (match d.entry? l with
        | some (.file (.text text)) => .ok text
        | some (.file (.binary _)) => .error (.fileUnreadable path .notText)
        | _ => .error (.fileNotFound path), d) := by
  rw [read, on_get_bind]
  cases there : d.entry? l with
  | none =>
    have found : d.find (w.pathOf path) = .error .noEntry := by simp [find, leads.resolve, there]
    rw [found]
    rfl
  | some entry =>
    cases entry with
    | folder => exact absurd there leads.free
    | file content =>
      rw [find_of_leads leads there]
      cases content with
      | text text => rfl
      | binary bytes => rfl

theorem localTo_read (w : Workspace) (path : String) (l : Location) :
    (w.read path).LocalTo (w.pathOf path) l where
  alike leads leads' agree := by
    rw [on_read leads, on_read leads', agree l (self_mem_editArea l)]
    exact ⟨rfl, agree⟩
  folders leads := by rw [on_read leads]
  frame leads _ _ := by rw [on_read leads]

theorem localTo_session (w : Workspace) (path : String) (l : Location) :
    (w.session path).LocalTo (w.pathOf path) l :=
  localTo_bind_of_forall (localTo_read w path l) fun _ => localTo_pure _

theorem localTo_insert {p : Path} (s : Edit.Session) (offset : Nat) (text : String) (side : Edit.Side) :
    (insert s offset text side).LocalTo p l := by
  unfold insert
  split
  next => exact localTo_pure _
  next => exact localTo_throw _

/-- **Saving a session** is local to its file. -/
theorem localTo_save (w : Workspace) (s : Edit.Session) (l : Location) :
    (w.save s).LocalTo (w.pathOf s.path) l := by
  have replaced {d : Disk} (leads : d.Leads (w.pathOf s.path) l) (free : d.obstacle? l = none) :
      Replaced (temporaryAt l) l (.text s.apply) d (d.replace (temporaryAt l) l (.text s.apply)) ∧
        SameFolders d (d.replace (temporaryAt l) l (.text s.apply)) := by
    have temporary := (leads_temporaryOf_iff leads).mpr ⟨free, rfl⟩
    have changed : Replaced (temporaryAt l) l (.text s.apply) d
        (d.replace (temporaryAt l) l (.text s.apply)) :=
      replaced_replace temporary leads (temporaryAt_ne leads.named)
    exact ⟨changed, changed.sameFolders temporary leads⟩
  refine ⟨fun {d e} leads leads' agree => ?_, fun {d} leads => ?_, fun {d} leads x outside => ?_⟩
  · have obstacles : d.obstacle? l = e.obstacle? l := by
      rw [obstacle?, obstacle?, agree (temporaryAt l) (temporaryAt_mem_editArea l)]
    rw [on_save leads, on_save leads', obstacles]
    cases free : e.obstacle? l with
    | some why => exact ⟨rfl, agree⟩
    | none =>
      have one := (replaced leads (obstacles.trans free)).1
      have two := (replaced leads' free).1
      refine ⟨rfl, ?_⟩
      rintro x (rfl | rfl)
      · exact one.file.trans two.file.symm
      · exact one.temporary.trans two.temporary.symm
  · rw [on_save leads]
    cases free : d.obstacle? l with
    | some why => exact .refl d
    | none => exact (replaced leads free).2
  · rw [on_save leads]
    cases free : d.obstacle? l with
    | some why => rfl
    | none =>
      obtain ⟨not_file, not_temporary⟩ := not_or.mp outside
      exact (replaced leads free).1.other x not_temporary not_file

/-- **Files that are apart** are edited in different places. -/
theorem Apart.disjoint (h : w.Apart d path path') (leads : d.Leads (w.pathOf path) l)
    (leads' : d.Leads (w.pathOf path') l') : ∀ x ∈ editArea l, x ∉ editArea l' := by
  obtain ⟨files, temporary, temporary'⟩ := h l l' leads leads'
  rintro x (rfl | rfl) (same | same)
  · exact files same
  · exact temporary same
  · exact temporary' same
  · exact files ((temporaryAt_inj leads.named leads'.named).mp same)

end Workspace

end ModelGrid.Store
