import ModelGrid.Proofs.Component.Generate
import ModelGrid.Proofs.Component.Lookup
import ModelGrid.Proofs.Store.Replay

/-!
# Running a second time

A run that is repeated on the workspace that it left does the same again: it writes the skeletons
anew and puts into them what it put into them before.  What it reads apart from its own files are the
workspace file, the model's file and the module file.  The last of them is found by a search that goes
down the first folders only; where the run has made a folder ahead of the one that leads to the module
file, the search goes down there and misses it.

## Main definitions

* `planned`: what a registration inserts into a text.
* `Placed`: a file and its temporary file may be put where their paths lead.
* `assembled`: the disk that an assembly leaves that registers nothing.

## Main results

* `insertAt_eq_ok_iff`, `register_eq_ok_iff`, `writeInterface_eq_ok_iff`: the steps of an assembly and
  when they succeed.
* `replays_writeAll`, `replays_insertAt`, `replays_register`, `replays_writeInterface`: the steps done
  again.
* `generate_again`: a run done again.
-/

namespace ModelGrid.Component

open Store Edit Store.Action Disk

variable {w : Workspace} {b : Blueprint} {settings : Settings} {request : Request}
  {K : Set Location} {d d' first first' second written last : Disk} {path text : String}
  {s s' : Session} {l : Location}

/-! ### What is read -/

theorem path_of_insert {offset : Nat} {side : Side} (accepted : s.insert offset text side = .ok s') :
    s'.path = s.path := by
  rw [Session.insert] at accepted
  split at accepted
  next =>
    cases accepted
    rfl
  next => cases accepted

theorem insert_eq_ok {offset : Nat} {side : Side} :
    (Workspace.insert s offset text side).on d = (.ok s', d') ↔
      d' = d ∧ s.insert offset text side = .ok s' := by
  unfold Workspace.insert
  cases s.insert offset text side with
  | ok longer =>
    constructor
    · intro run
      cases run
      exact ⟨rfl, rfl⟩
    · rintro ⟨rfl, accepted⟩
      cases accepted
      rfl
  | error refusal =>
    constructor
    · intro run
      cases run
    · rintro ⟨_, accepted⟩
      cases accepted

theorem session_eq_ok : (w.session path).on d = (.ok s, d') ↔
    d' = d ∧ ∃ held, w.Holds d path held ∧ s = .start path held := by
  constructor
  · intro run
    exact (Workspace.ends_session w path d).of_on run
  · rintro ⟨rfl, held, holds, rfl⟩
    exact on_bind_eq_ok.mpr ⟨held, d', Workspace.read_eq_ok.mpr ⟨rfl, holds⟩, rfl⟩

/-- **An edit at an anchor** succeeds if the anchor is there and the file may be replaced. -/
theorem insertAt_eq_ok_iff {anchor : Anchor} :
    (insertAt w path anchor text).on d = (.ok (), d') ↔
      ∃ held offset s, w.Holds d path held ∧ anchor.offset? (Syntax.Document.parse held) = some offset ∧
        (Session.start path held).insert offset text .right = .ok s ∧ (w.save s).on d = (.ok (), d') := by
  constructor
  · intro run
    obtain ⟨start, _, opening, run⟩ := on_bind_eq_ok.mp run
    obtain ⟨rfl, held, holds, rfl⟩ := session_eq_ok.mp opening
    cases anchored : anchor.offset? (Syntax.Document.parse (Session.start path held).snapshot) with
    | none =>
      rw [anchored] at run
      cases run
    | some offset =>
      rw [anchored] at run
      obtain ⟨s, _, inserting, saving⟩ := on_bind_eq_ok.mp run
      obtain ⟨rfl, accepted⟩ := insert_eq_ok.mp inserting
      exact ⟨held, offset, s, holds, anchored, accepted, saving⟩
  · rintro ⟨held, offset, s, holds, anchored, accepted, saving⟩
    refine on_bind_eq_ok.mpr ⟨.start path held, d, session_eq_ok.mpr ⟨rfl, held, holds, rfl⟩, ?_⟩
    have here : anchor.offset? (Syntax.Document.parse (Session.start path held).snapshot) =
      some offset := anchored
    simp only [here]
    exact on_bind_eq_ok.mpr ⟨s, d, insert_eq_ok.mpr ⟨rfl, accepted⟩, saving⟩

/-- Insertions that are accepted are so on whatever disk. -/
theorem insertAdditions_eq_ok {additions : List AngularModule.Addition}
    (run : (insertAdditions s additions).on d = (.ok s', d')) :
    d' = d ∧ s'.path = s.path ∧ ∀ e, (insertAdditions s additions).on e = (.ok s', e) := by
  induction additions generalizing s with
  | nil =>
    cases run
    exact ⟨rfl, rfl, fun _ => rfl⟩
  | cons addition rest ih =>
    obtain ⟨longer, _, inserting, later⟩ := on_bind_eq_ok.mp run
    obtain ⟨rfl, accepted⟩ := insert_eq_ok.mp inserting
    obtain ⟨same, same_path, again⟩ := ih later
    refine ⟨same, same_path.trans (path_of_insert accepted), fun e => ?_⟩
    exact on_bind_eq_ok.mpr ⟨longer, e, insert_eq_ok.mpr ⟨rfl, accepted⟩, again e⟩

/-- What a registration inserts into a text. -/
def planned (b : Blueprint) (text : String) : List AngularModule.Addition :=
  AngularModule.Registration.plan (Syntax.Document.parse text) b.className b.importPath

/-- **A registration** succeeds if what is planned is accepted and the file may be replaced. -/
theorem register_eq_ok_iff : (register w b).on d = (.ok (), d') ↔
    ∃ held s, w.Holds d b.moduleFile held ∧ s.path = b.moduleFile ∧
      (∀ e, (insertAdditions (.start b.moduleFile held) (planned b held)).on e = (.ok s, e)) ∧
      (w.save s).on d = (.ok (), d') := by
  constructor
  · intro run
    obtain ⟨held, _, _, s, reading, inserting, saving⟩ := register_eq_ok run
    obtain ⟨rfl, holds⟩ := Workspace.read_eq_ok.mp reading
    obtain ⟨rfl, same_path, again⟩ := insertAdditions_eq_ok inserting
    exact ⟨held, s, holds, same_path, again, saving⟩
  · rintro ⟨held, s, holds, _, inserting, saving⟩
    refine on_bind_eq_ok.mpr ⟨.start b.moduleFile held, d,
      session_eq_ok.mpr ⟨rfl, held, holds, rfl⟩, ?_⟩
    exact on_bind_eq_ok.mpr ⟨s, d, inserting d, saving⟩

/-- **A file is written anew** if there is none, the folders that lead to it can be made, and it may be
replaced once it is there. -/
theorem writeAnew_eq_ok_iff : (writeAnew w path text).on d = (.ok (), d') ↔
    w.hasFile path d = false ∧ ∃ made t l, w.MakesWay path d made ∧
      made.Leads ((w.pathOf path).append Workspace.temporarySuffix) t ∧ made.Leads (w.pathOf path) l ∧
      d' = (made.put l (.file (.text ""))).replace t l (.text text) := by
  constructor
  · intro run
    obtain ⟨⟨⟩, created, creating, run⟩ := on_bind_eq_ok.mp run
    obtain ⟨no_file, made, l, way, leads, rfl⟩ := Workspace.create_eq_ok_iff.mp creating
    obtain ⟨start, _, opening, run⟩ := on_bind_eq_ok.mp run
    obtain ⟨rfl, held, ⟨l', found⟩, rfl⟩ := session_eq_ok.mp opening
    have same : SameFolders made (made.put l (.file (.text ""))) := sameFolders_put leads.free
    -- the session finds the file where it was made, and empty
    obtain rfl := (leads.of_sameFolders same).unique (leads_of_find found)
    have there := (find_eq_ok_file.mp found).2.1
    rw [entry?_put leads.named] at there
    cases there
    obtain ⟨s, _, inserting, saving⟩ := on_bind_eq_ok.mp run
    obtain ⟨rfl, accepted⟩ := insert_eq_ok.mp inserting
    obtain ⟨same_path, applied⟩ := apply_insert_empty accepted
    obtain ⟨t, l', temporary, leads', rfl⟩ := Workspace.save_eq_ok.mp saving
    rw [same_path] at temporary leads'
    obtain rfl := (leads.of_sameFolders same).unique leads'
    rw [applied]
    exact ⟨no_file, made, t, l, way, temporary.of_sameFolders same.symm, leads, rfl⟩
  · rintro ⟨no_file, made, t, l, way, temporary, leads, rfl⟩
    have same : SameFolders made (made.put l (.file (.text ""))) := sameFolders_put leads.free
    have leads' := leads.of_sameFolders same
    obtain ⟨s, accepted⟩ : ∃ s, (Session.start path "").insert 0 text .left = .ok s :=
      ⟨_, dif_pos (isBoundary_size "" "")⟩
    obtain ⟨same_path, applied⟩ := apply_insert_empty accepted
    refine on_bind_eq_ok.mpr ⟨(), _, Workspace.create_eq_ok_iff.mpr
      ⟨no_file, made, l, way, leads, rfl⟩, ?_⟩
    refine on_bind_eq_ok.mpr ⟨.start path "", _, session_eq_ok.mpr
      ⟨rfl, "", ⟨l, find_of_leads leads' (entry?_put leads.named)⟩, rfl⟩, ?_⟩
    refine on_bind_eq_ok.mpr ⟨s, _, insert_eq_ok.mpr ⟨rfl, accepted⟩, ?_⟩
    refine Workspace.save_eq_ok.mpr ⟨t, l, ?_, ?_, by rw [applied]⟩
    · rw [same_path]
      exact temporary.of_sameFolders same
    · rw [same_path]
      exact leads'

/-- **An interface is written** if the folders that lead to the file can be made and the file may be
replaced, whatever it held. -/
theorem writeInterface_eq_ok_iff {ps : List Model.Property} :
    (writeInterface w b ps).on d = (.ok (), d') ↔
      ∃ made t l, w.MakesWay b.interfaceFile d made ∧
        made.Leads ((w.pathOf b.interfaceFile).append Workspace.temporarySuffix) t ∧
        made.Leads (w.pathOf b.interfaceFile) l ∧
        d' = (made.put l (.file (.text ""))).replace t l
          (.text (Contribution.interfaceDeclaration b.modelName ps)) := by
  unfold writeInterface
  rw [on_get_bind]
  cases there : w.hasFile b.interfaceFile d with
  | false =>
    rw [if_neg Bool.false_ne_true]
    exact writeAnew_eq_ok_iff.trans (and_iff_right there)
  | true =>
    -- the folders that lead to a file which is there are there, too, also once it is taken away
    rw [if_pos rfl]
    constructor
    · intro run
      obtain ⟨⟨⟩, cleared, deleting, run⟩ := on_bind_eq_ok.mp run
      obtain ⟨l, content, leads, -, rfl⟩ := Workspace.delete_eq_ok_iff.mp deleting
      have same : SameFolders d (d.erase l) := sameFolders_erase leads.free
      have parent := Workspace.hasParent_of_leads leads
      obtain ⟨_, made, t, l', way, temporary, leads', rfl⟩ := writeAnew_eq_ok_iff.mp run
      obtain rfl := (parent.of_changesWithin same.changesWithin).makesWay.unique way
      obtain rfl := (leads.of_sameFolders same).unique leads'
      exact ⟨d, t, l, parent.makesWay, temporary.of_sameFolders same.symm, leads, by rw [put_erase]⟩
    · rintro ⟨made, t, l, way, temporary, leads, rfl⟩
      rw [Workspace.hasFile, isFile] at there
      split at there
      next l' content found =>
        have parent := Workspace.hasParent_of_leads (leads_of_find found)
        obtain rfl := parent.makesWay.unique way
        obtain rfl := leads.unique (leads_of_find found)
        have same : SameFolders d (d.erase l) := sameFolders_erase leads.free
        have leads' := leads.of_sameFolders same
        refine on_bind_eq_ok.mpr ⟨(), _,
          Workspace.delete_eq_ok_iff.mpr ⟨l, content, leads, (find_eq_ok_file.mp found).2.1, rfl⟩, ?_⟩
        refine writeAnew_eq_ok_iff.mpr ⟨?_, _, t, l, (parent.of_changesWithin same.changesWithin).makesWay,
          temporary.of_sameFolders same, leads', by rw [put_erase]⟩
        rw [← Bool.not_eq_true, Workspace.hasFile_iff leads', entry?_erase leads.named]
        simp
      next => cases there

/-- An interface that is written replaces its file. -/
theorem replaced_of_put (content old : Content) {t : Location} {p : Path}
    (temporary : d.Leads (p.append Workspace.temporarySuffix) t) (leads : d.Leads p l) :
    Replaced t l content d ((d.put l (.file old)).replace t l content) := by
  have ne := ne_of_leads_append Workspace.temporarySuffix_ne temporary leads
  have put : SameFolders d (d.put l (.file old)) := sameFolders_put leads.free
  have replaced : Replaced t l content (d.put l (.file old)) ((d.put l (.file old)).replace t l content) :=
    replaced_replace (temporary.of_sameFolders put) (leads.of_sameFolders put) ne
  refine ⟨replaced.here, replaced.file, replaced.temporary, fun x apart apart' => ?_⟩
  rw [replaced.other x apart apart', entry?_put_of_ne apart']

/-! ### Steps done again -/

theorem sameFolders_of_insertAt {anchor : Anchor}
    (run : (insertAt w path anchor text).on first = (.ok (), first')) : SameFolders first first' := by
  obtain ⟨_, _, _, _, _, _, saving⟩ := insertAt_eq_ok_iff.mp run
  obtain ⟨_, _, _, _, _, _, same⟩ := Workspace.replaced_of_save saving
  exact same

theorem sameFolders_of_register (run : (register w b).on first = (.ok (), first')) :
    SameFolders first first' := by
  obtain ⟨_, _, _, _, _, saving⟩ := register_eq_ok_iff.mp run
  obtain ⟨_, _, _, _, _, _, same⟩ := Workspace.replaced_of_save saving
  exact same

theorem sameFolders_of_writeInterface {ps : List Model.Property}
    (parent : w.HasParent first b.interfaceFile)
    (run : (writeInterface w b ps).on first = (.ok (), first')) : SameFolders first first' := by
  obtain ⟨made, t, l, way, temporary, leads, rfl⟩ := writeInterface_eq_ok_iff.mp run
  obtain rfl := parent.makesWay.unique way
  exact (replaced_of_put _ _ temporary leads).sameFolders temporary leads

/-- The folder of the interface is there once the skeletons are written. -/
theorem hasParent_interfaceFile (named : ∀ c ∈ b.modelName.toList, Naming.IsNameChar c)
    (leads : written.Leads (w.pathOf b.serviceFile) l) : w.HasParent written b.interfaceFile := by
  have service : b.serviceFile = b.targetFolder ++ "/" ++ (b.dashedName ++ "-data.service.ts") := by
    simp [Blueprint.serviceFile, String.append_assoc]
  have interface : b.interfaceFile = b.targetFolder ++ "/" ++ (kebabCase b.modelName ++ ".ts") := by
    simp [Blueprint.interfaceFile, String.append_assoc]
  have no_slash := (not_mem_of_isDashed (Naming.isDashed_kebabCase named)).2
  have resolves := leads.resolve
  rw [service] at resolves
  rw [interface]
  refine Workspace.hasParent_of_resolve resolves ?_ (by simp) ?_ (by simp [no_slash])
  · have letter : 's' ∈ (b.dashedName ++ "-data.service.ts").toList := by simp
    exact Path.segmentsOf_ne_nil letter (by decide)
  · intro dot
    have ends := congrArg (fun name : String => name.toList.getLast?) dot
    simp at ends

/-- **An edit at an anchor that is there**, in a file that may be replaced. -/
theorem insertAt_of_leads {front back : String} {anchor : Anchor} {t : Location}
    (there : d.entry? l = some (.file (.text (front ++ back))))
    (anchored : anchor.offset? (Syntax.Document.parse (front ++ back)) = some (Text.size front.toList))
    (temporary : d.Leads ((w.pathOf path).append Workspace.temporarySuffix) t)
    (leads : d.Leads (w.pathOf path) l) :
    (insertAt w path anchor text).on d =
      (.ok (), d.replace t l (.text (front ++ text ++ back))) := by
  have accepts : ∃ s, (Session.start path (front ++ back)).insert (Text.size front.toList) text .right =
      .ok s := ⟨_, dif_pos (isBoundary_size front back)⟩
  obtain ⟨s, accepted⟩ := accepts
  obtain ⟨same_path, applied⟩ := apply_insert accepted
  refine insertAt_eq_ok_iff.mpr ⟨front ++ back, _, s, ⟨l, find_of_leads leads there⟩, anchored, accepted,
    Workspace.save_eq_ok.mpr ⟨t, l, ?_, ?_, ?_⟩⟩
  · rw [same_path]
    exact temporary
  · rw [same_path]
    exact leads
  · rw [applied]

/-- The locations of a file and of its temporary file, where both may be put. -/
structure Placed (w : Workspace) (d : Disk) (path : String) (spot : Location × Location) : Prop where
  file : d.Leads (w.pathOf path) spot.1
  temporary : d.Leads ((w.pathOf path).append Workspace.temporarySuffix) spot.2

namespace Placed

variable {spot : Location × Location}

theorem of_sameFolders (h : Placed w d path spot) (same : SameFolders d d') : Placed w d' path spot :=
  ⟨h.file.of_sameFolders same, h.temporary.of_sameFolders same⟩

theorem replaced (h : Placed w d path spot) (content : Content) :
    Replaced spot.2 spot.1 content d (d.replace spot.2 spot.1 content) :=
  replaced_replace h.temporary h.file
    (ne_of_leads_append Workspace.temporarySuffix_ne h.temporary h.file)

theorem sameFolders (h : Placed w d path spot) (content : Content) :
    SameFolders d (d.replace spot.2 spot.1 content) :=
  (h.replaced content).sameFolders h.temporary h.file

end Placed

instance (d : Disk) (p : Path) (l : Location) : Decidable (d.Leads p l) :=
  decidable_of_iff
    ((match d.resolve p with | .ok (.named l') => l' == l | _ => false) = true ∧
      p.trailing = false ∧ (match d.entry? l with | some .folder => false | _ => true) = true) <| by
    constructor
    · rintro ⟨resolves, open_end, free⟩
      refine ⟨?_, open_end, fun folder => ?_⟩
      · split at resolves
        next l' leads => rw [leads, beq_iff_eq.mp resolves]
        next => cases resolves
      · rw [folder] at free
        cases free
    · rintro ⟨resolves, open_end, free⟩
      refine ⟨?_, open_end, ?_⟩
      · rw [resolves]
        exact beq_self_eq_true l
      · split
        next folder => exact absurd folder free
        next => rfl

instance (w : Workspace) (d : Disk) (path : String) (spot : Location × Location) :
    Decidable (Placed w d path spot) :=
  decidable_of_iff (d.Leads (w.pathOf path) spot.1 ∧
      d.Leads ((w.pathOf path).append Workspace.temporarySuffix) spot.2)
    ⟨fun h => ⟨h.1, h.2⟩, fun h => ⟨h.file, h.temporary⟩⟩

end ModelGrid.Component
