import ModelGrid.Proofs.Edit.Layout
import ModelGrid.Proofs.Store.Area

/-!
# Sessions side by side

Any number of sessions may be open at a time, and their steps may come in any order.  A session has
taken its snapshot at its start, so that nothing that happens to the file afterwards reaches it; and it
is saved by an action that is local to its file.  Sessions on files that are apart therefore answer as
if they were alone.  Among sessions on one file the last one that is saved wins, with its own snapshot
and its own insertions.

## Main definitions

* `SessionStep`, `Call`: a step of a session, and which session it is of.
* `Desk`: the disk and the sessions that are open.
* `Desk.run`: calls in the order in which they come, with what each of them answers.
* `callsOf`, `answersOf`: the part of a single session.

## Main results

* `Desk.Sound.call`, `Desk.alike_call`: what a call does to the session that it is of, and to others.
* `Desk.alike_run`: a session answers as if it were alone.
* `Desk.run_interleaved`: sessions side by side.
-/

namespace ModelGrid.Store

open Disk Store.Action

/-! ### Steps -/

/-- A step of a session. -/
inductive SessionStep
  /-- Take a snapshot of the file. -/
  | start
  /-- Plan an insertion into the snapshot. -/
  | insert (insertion : Edit.Insertion)
  /-- Put the edited text in the place of the file; the session is over. -/
  | save
  deriving DecidableEq, Repr

namespace SessionStep

/-- The action of a step, which comes to the session that is open afterwards, if any.  There is none
where the step needs an open session and there is not one. -/
def action? (w : Workspace) (path : String) :
    SessionStep → Option Edit.Session → Option (Action (Option Edit.Session))
  | start, _ => some do return some (← w.session path)
  | insert i, some s => some do return some (← Workspace.insert s i.offset i.text i.side)
  | save, some s => some do
    w.save s
    return none
  | insert _, none | save, none => none

/-- The session that is open after a step.  One that is saved is over, also where saving fails; any
other step that fails leaves the session as it was. -/
def leaves (step : SessionStep) (before : Option Edit.Session) :
    Except Fault (Option Edit.Session) → Option Edit.Session
  | .ok after => after
  | .error _ => if step = save then none else before

end SessionStep

/-- A step, and the number of the session that it is of. -/
structure Call where
  session : Nat
  step : SessionStep
  deriving DecidableEq, Repr

/-- What a call comes to; nothing where the session is not open. -/
abbrev Answer := Option (Except Fault (Option Edit.Session))

/-- The disk and the sessions that are open. -/
structure Desk where
  disk : Disk
  opened : Nat → Option Edit.Session

namespace Desk

/-- No session is open yet. -/
def start (d : Disk) : Desk := ⟨d, fun _ => none⟩

variable (w : Workspace) (path : Nat → String)

/-- Do a call.  The file of session `i` is the one at `path i`. -/
def call (c : Call) (desk : Desk) : Answer × Desk :=
  match c.step.action? w (path c.session) (desk.opened c.session) with
  | none => (none, desk)
  | some action =>
    let (result, disk) := action.on desk.disk
    let left := c.step.leaves (desk.opened c.session) result
    (some result, { disk, opened := Function.update desk.opened c.session left })

/-- Do calls one after another, and note what each of them answers. -/
def run : List Call → Desk → List (Call × Answer) × Desk
  | [], desk => ([], desk)
  | c :: calls, desk =>
    let (answer, mid) := desk.call w path c
    let (answers, last) := run calls mid
    ((c, answer) :: answers, last)

end Desk

/-- The calls of a session. -/
def callsOf (i : Nat) (calls : List Call) : List Call := calls.filter (·.session == i)

/-- The answers to a session. -/
def answersOf (i : Nat) (log : List (Call × Answer)) : List Answer :=
  (log.filter (·.1.session == i)).map Prod.snd

/-- The insertions that are asked for in a session. -/
def insertionsOf (i : Nat) (calls : List Call) : List Edit.Insertion :=
  calls.filterMap fun c =>
    match c.step with
    | .insert insertion => if c.session = i then some insertion else none
    | _ => none

namespace Desk

variable {w : Workspace} {path : Nat → String} {d : Disk} {desk desk' : Desk} {c : Call} {i : Nat}
  {x l : Location} {calls : List Call}

/-! ### What a step comes to -/

/-- Where the session with the path edits, if the path leads somewhere. -/
def areaOf (w : Workspace) (d : Disk) (path : String) : Set Location :=
  {x | ∃ l, d.Leads (w.pathOf path) l ∧ x ∈ editArea l}

theorem areaOf_eq {path : String} (leads : d.Leads (w.pathOf path) l) :
    areaOf w d path = editArea l := by
  ext x
  constructor
  · rintro ⟨l', leads', mem⟩
    exact leads.unique leads' ▸ mem
  · exact fun mem => ⟨l, leads, mem⟩

/-- What the actions of steps are. -/
theorem action?_eq_some {path : String} {step : SessionStep} {before : Option Edit.Session}
    {action : Action (Option Edit.Session)} (found : step.action? w path before = some action) :
    (step = .start ∧ action = do return some (← w.session path)) ∨
      (∃ i s, step = .insert i ∧ before = some s ∧
        action = do return some (← Workspace.insert s i.offset i.text i.side)) ∨
      ∃ s, step = .save ∧ before = some s ∧ action = do
        w.save s
        return none := by
  cases step with
  | start => exact .inl ⟨rfl, (Option.some.inj found).symm⟩
  | insert i =>
    cases before with
    | none => cases found
    | some s => exact .inr (.inl ⟨i, s, rfl, rfl, (Option.some.inj found).symm⟩)
  | save =>
    cases before with
    | none => cases found
    | some s => exact .inr (.inr ⟨s, rfl, rfl, (Option.some.inj found).symm⟩)

section Step

variable {path : String} {step : SessionStep} {before : Option Edit.Session}
  {action : Action (Option Edit.Session)}

/-- A step of a session is local to the file of the session. -/
theorem localTo_action? (found : step.action? w path before = some action)
    (own : ∀ s ∈ before, s.path = path) : action.LocalTo (w.pathOf path) l := by
  rcases action?_eq_some found with ⟨rfl, rfl⟩ | ⟨i, s, rfl, rfl, rfl⟩ | ⟨s, rfl, rfl, rfl⟩
  · exact localTo_bind_of_forall (Workspace.localTo_session w path l) fun _ => localTo_pure _
  · exact localTo_bind_of_forall (Workspace.localTo_insert s _ _ _) fun _ => localTo_pure _
  · exact localTo_bind_of_forall (own s rfl ▸ Workspace.localTo_save w s l) fun _ => localTo_pure _

/-- The session that a step comes to is on the same file, which is there. -/
theorem own_action? (found : step.action? w path before = some action)
    (own : ∀ s ∈ before, s.path = path ∧ ∃ l, d.Leads (w.pathOf path) l) :
    action.Ends d (fun after _ => ∀ s ∈ after, s.path = path ∧ ∃ l, d.Leads (w.pathOf path) l)
      fun _ _ => True := by
  rcases action?_eq_some found with ⟨rfl, rfl⟩ | ⟨i, s, rfl, rfl, rfl⟩ | ⟨s, rfl, rfl, rfl⟩
  · refine ends_bind ((Workspace.ends_session w path d).weaken fun _ _ _ => trivial) ?_
    rintro _ _ ⟨_, text, ⟨l, there⟩, rfl⟩
    refine ends_pure ?_
    rintro _ ⟨⟩
    exact ⟨rfl, l, leads_of_find there⟩
  · refine ends_bind ((Workspace.ends_insert_late s _ _ _ d).weaken fun _ _ _ => trivial) ?_
    rintro longer _ ⟨_, same⟩
    refine ends_pure ?_
    rintro _ ⟨⟩
    exact ⟨same.trans (own s rfl).1, (own s rfl).2⟩
  · have saved : (w.save s).Ends d (fun _ _ => True) fun _ _ => True :=
      ends_iff.mpr ⟨fun _ _ _ => trivial, fun _ _ _ => trivial⟩
    exact ends_bind saved fun _ _ _ => ends_pure nofun

/-- Steps other than saving leave the disk as it is. -/
theorem readsOnly_action? (found : step.action? w path before = some action) (not_save : step ≠ .save) :
    action.ReadsOnly := by
  rcases action?_eq_some found with ⟨rfl, rfl⟩ | ⟨i, s, rfl, rfl, rfl⟩ | ⟨s, rfl, rfl, rfl⟩
  · refine readsOnly_bind ?_ fun _ => readsOnly_pure _
    exact readsOnly_bind (Workspace.readsOnly_read w path) fun _ => readsOnly_pure _
  · refine readsOnly_bind ?_ fun _ => readsOnly_pure _
    unfold Workspace.insert
    split
    next => exact readsOnly_pure _
    next => exact readsOnly_throw _
  · exact absurd rfl not_save

/-- Where the path of a session leads nowhere, a file is asked for that is not there. -/
theorem on_action?_of_nowhere (found : step.action? w path before = some action)
    (own : ∀ s ∈ before, ∃ l, d.Leads (w.pathOf path) l) (nowhere : ∀ l, ¬ d.Leads (w.pathOf path) l)
    {e : Disk} (same : SameFolders d e) : action.on e = (.error (.fileNotFound path), e) := by
  have nothing (s : Edit.Session) : before ≠ some s := fun there =>
    have ⟨l, leads⟩ := own s there
    nowhere l leads
  rcases action?_eq_some found with ⟨rfl, rfl⟩ | ⟨i, s, rfl, there, rfl⟩ | ⟨s, rfl, there, rfl⟩
  · have missing : (w.read path).on e = (.error (.fileNotFound path), e) := by
      rw [Workspace.read, on_get_bind]
      split
      next found => exact absurd ((leads_of_find found).of_sameFolders same.symm) (nowhere _)
      next found => exact absurd ((leads_of_find found).of_sameFolders same.symm) (nowhere _)
      next => rfl
    rw [on_bind, Workspace.session, on_bind, missing]
  · exact absurd there (nothing s)
  · exact absurd there (nothing s)

end Step

/-! ### What a call does -/

/-- The folders are as they were on the first disk, and each session that is open is on a file that is
there. -/
structure Sound (w : Workspace) (path : Nat → String) (d : Disk) (desk : Desk) : Prop where
  folders : SameFolders d desk.disk
  own : ∀ i, ∀ s ∈ desk.opened i, s.path = path i ∧ ∃ l, d.Leads (w.pathOf (path i)) l

theorem sound_start (w : Workspace) (path : Nat → String) (d : Disk) : Sound w path d (start d) :=
  ⟨.refl d, fun _ _ => nofun⟩

/-- To the session, the desks are the same. -/
structure Alike (w : Workspace) (path : Nat → String) (d : Disk) (i : Nat) (one two : Desk) : Prop where
  opened : one.opened i = two.opened i
  entry : AgreeOn (areaOf w d (path i)) one.disk two.disk

/-- The call has saved a session that edits at the location. -/
def SavedAt (w : Workspace) (path : Nat → String) (d : Disk) (x : Location) (entry : Call × Answer) :
    Prop :=
  entry.1.step = .save ∧ entry.2 = some (.ok none) ∧ x ∈ areaOf w d (path entry.1.session)

/-- A call of a session that is not open, if it has to be. -/
theorem call_of_none (none_found : c.step.action? w (path c.session) (desk.opened c.session) = none) :
    desk.call w path c = (none, desk) := by
  rw [call, none_found]

theorem call_of_some {action : Action (Option Edit.Session)}
    (found : c.step.action? w (path c.session) (desk.opened c.session) = some action) :
    desk.call w path c =
      (some (action.on desk.disk).1,
        ⟨(action.on desk.disk).2, Function.update desk.opened c.session
          (c.step.leaves (desk.opened c.session) (action.on desk.disk).1)⟩) := by
  rw [call, found]

/-- **Soundness is kept** by a call. -/
theorem Sound.call (h : Sound w path d desk) (c : Call) : Sound w path d (desk.call w path c).2 := by
  cases found : c.step.action? w (path c.session) (desk.opened c.session) with
  | none => rwa [call_of_none found]
  | some action =>
    rw [call_of_some found]
    have own : ∀ s ∈ desk.opened c.session, s.path = path c.session ∧
        ∃ l, desk.disk.Leads (w.pathOf (path c.session)) l := fun s mem =>
      have ⟨same, l, leads⟩ := h.own c.session s mem
      ⟨same, l, leads.of_sameFolders h.folders⟩
    refine ⟨?_, fun i s mem => ?_⟩
    · dsimp only
      by_cases leads : ∃ l, d.Leads (w.pathOf (path c.session)) l
      · obtain ⟨l, leads⟩ := leads
        exact h.folders.trans ((localTo_action? found fun s mem => (own s mem).1).folders
          (leads.of_sameFolders h.folders))
      · rw [on_action?_of_nowhere found (fun s mem => (h.own _ s mem).2) (not_exists.mp leads) h.folders]
        exact h.folders
    · dsimp only at mem
      by_cases here : i = c.session
      · subst here
        have back {l : Location} (leads : desk.disk.Leads (w.pathOf (path c.session)) l) :=
          leads.of_sameFolders h.folders.symm
        rw [Function.update_self] at mem
        rcases result : action.on desk.disk with ⟨fault | after, disk⟩
        · rw [result, SessionStep.leaves] at mem
          split at mem
          next => cases mem
          next => exact h.own _ s mem
        · rw [result] at mem
          obtain ⟨same, l, leads⟩ := (ends_iff.mp (own_action? found own)).1 after disk result s mem
          exact ⟨same, l, back leads⟩
      · rw [Function.update_of_ne here] at mem
        exact h.own i s mem

/-- A call is no matter to other sessions. -/
theorem opened_call_of_ne (other : c.session ≠ i) : (desk.call w path c).2.opened i = desk.opened i := by
  cases found : c.step.action? w (path c.session) (desk.opened c.session) with
  | none => rw [call_of_none found]
  | some action =>
    rw [call_of_some found]
    exact Function.update_of_ne other.symm _ _

/-- **What a call leaves alone**: all but the files of a session that it saves. -/
theorem entry?_call (h : Sound w path d desk)
    (not_saved : ¬ SavedAt w path d x (c, (desk.call w path c).1)) :
    entry? (desk.call w path c).2.disk x = desk.disk.entry? x := by
  cases found : c.step.action? w (path c.session) (desk.opened c.session) with
  | none => rw [call_of_none found]
  | some action =>
    rw [call_of_some found] at not_saved ⊢
    dsimp only at not_saved ⊢
    by_cases saving : c.step = .save
    · rcases action?_eq_some found with ⟨start, _⟩ | ⟨i, s, inserting, _⟩ | ⟨s, _, before, rfl⟩
      · cases start.symm.trans saving
      · cases inserting.symm.trans saving
      · obtain ⟨same, l, leads⟩ := h.own c.session s before
        have there : desk.disk.Leads (w.pathOf s.path) l := same ▸ leads.of_sameFolders h.folders
        rw [on_bind] at not_saved ⊢
        rcases result : (w.save s).on desk.disk with ⟨fault | ⟨⟨⟩⟩, after⟩
        · -- saving fails before anything is written, for an obstacle in the place of the temporary file
          rw [Workspace.on_save there] at result
          split at result
          next =>
            cases result
            rfl
          next => cases result
        · rw [result] at not_saved
          have outside : x ∉ editArea l := fun mem =>
            not_saved ⟨saving, rfl, l, leads, mem⟩
          have stays := (Workspace.localTo_save w s l).frame there x outside
          rwa [result] at stays
    · rw [readsOnly_action? found saving desk.disk]

/-- **A call answers the same** on desks that are the same to its session, and they remain the same to
it. -/
theorem alike_call {one two : Desk} (sound : Sound w path d one) (sound' : Sound w path d two)
    (h : Alike w path d c.session one two) :
    (one.call w path c).1 = (two.call w path c).1 ∧
      Alike w path d c.session (one.call w path c).2 (two.call w path c).2 := by
  cases found : c.step.action? w (path c.session) (one.opened c.session) with
  | none =>
    have found' := found
    rw [h.opened] at found'
    rw [call_of_none found, call_of_none found']
    exact ⟨rfl, h⟩
  | some action =>
    have found' := found
    rw [h.opened] at found'
    rw [call_of_some found, call_of_some found']
    have same : (action.on one.disk).1 = (action.on two.disk).1 ∧
        AgreeOn (areaOf w d (path c.session)) (action.on one.disk).2 (action.on two.disk).2 := by
      by_cases leads : ∃ l, d.Leads (w.pathOf (path c.session)) l
      · obtain ⟨l, leads⟩ := leads
        have entry := h.entry
        rw [areaOf_eq leads] at entry ⊢
        exact (localTo_action? found fun s mem => (sound.own _ s mem).1).alike
          (leads.of_sameFolders sound.folders) (leads.of_sameFolders sound'.folders) entry
      · have missing {e : Disk} (same : SameFolders d e) := on_action?_of_nowhere found
          (fun s mem => (sound.own _ s mem).2) (not_exists.mp leads) same
        rw [missing sound.folders, missing sound'.folders]
        exact ⟨rfl, h.entry⟩
    refine ⟨congrArg some same.1, ⟨?_, same.2⟩⟩
    dsimp only
    rw [Function.update_self, Function.update_self, same.1, h.opened]

/-! ### What a run does -/

@[simp] theorem run_nil (desk : Desk) : run w path [] desk = ([], desk) := rfl

@[simp] theorem run_cons (c : Call) (calls : List Call) (desk : Desk) :
    run w path (c :: calls) desk =
      ((c, (desk.call w path c).1) :: (run w path calls (desk.call w path c).2).1,
        (run w path calls (desk.call w path c).2).2) := rfl

theorem run_append (front back : List Call) (desk : Desk) :
    run w path (front ++ back) desk =
      ((run w path front desk).1 ++ (run w path back (run w path front desk).2).1,
        (run w path back (run w path front desk).2).2) := by
  induction front generalizing desk with
  | nil => rfl
  | cons c front ih => rw [List.cons_append, run_cons, run_cons, ih, List.cons_append]

theorem Sound.run (h : Sound w path d desk) (calls : List Call) :
    Sound w path d (run w path calls desk).2 := by
  induction calls generalizing desk with
  | nil => exact h
  | cons c calls ih => exact ih (h.call c)

/-- **What a run leaves alone**: all but the files of sessions that it saves. -/
theorem entry?_run (h : Sound w path d desk)
    (not_saved : ∀ entry ∈ (run w path calls desk).1, ¬ SavedAt w path d x entry) :
    entry? (run w path calls desk).2.disk x = desk.disk.entry? x := by
  induction calls generalizing desk with
  | nil => rfl
  | cons c calls ih =>
    rw [run_cons] at not_saved ⊢
    have later := ih (h.call c) fun entry mem => not_saved entry (List.mem_cons_of_mem _ mem)
    exact later.trans (entry?_call h (not_saved _ List.mem_cons_self))

/-- The calls of a run, of which the log tells. -/
theorem map_fst_run (calls : List Call) (desk : Desk) : (run w path calls desk).1.map Prod.fst = calls := by
  induction calls generalizing desk with
  | nil => rfl
  | cons c calls ih => rw [run_cons, List.map_cons, ih]

theorem mem_of_mem_run {entry : Call × Answer} (mem : entry ∈ (run w path calls desk).1) :
    entry.1 ∈ calls := by
  have mapped := List.mem_map_of_mem (f := Prod.fst) mem
  rwa [map_fst_run] at mapped

/-- **A session answers as if it were alone**, if all others edit elsewhere. -/
theorem alike_run {one two : Desk}
    (apart : ∀ c ∈ calls, c.session ≠ i →
      ∀ x ∈ areaOf w d (path i), x ∉ areaOf w d (path c.session))
    (sound : Sound w path d one) (sound' : Sound w path d two) (h : Alike w path d i one two) :
    answersOf i (run w path calls one).1 = answersOf i (run w path (callsOf i calls) two).1 ∧
      Alike w path d i (run w path calls one).2 (run w path (callsOf i calls) two).2 := by
  induction calls generalizing one two with
  | nil => exact ⟨rfl, h⟩
  | cons c calls ih =>
    have apart' : ∀ c' ∈ calls, c'.session ≠ i →
        ∀ x ∈ areaOf w d (path i), x ∉ areaOf w d (path c'.session) :=
      fun c' mem => apart c' (List.mem_cons_of_mem c mem)
    by_cases own : c.session = i
    · subst own
      have kept : callsOf c.session (c :: calls) = c :: callsOf c.session calls := by simp [callsOf]
      obtain ⟨answer, after⟩ := alike_call sound sound' h
      obtain ⟨answers, last⟩ := ih apart' (sound.call c) (sound'.call c) after
      rw [kept, run_cons, run_cons]
      refine ⟨?_, last⟩
      unfold answersOf at answers ⊢
      simp [answers, answer]
    · -- the call is of another session, and changes nothing where session `i` edits
      have dropped : callsOf i (c :: calls) = callsOf i calls := by simp [callsOf, own]
      have after : Alike w path d i (one.call w path c).2 two := by
        refine ⟨(opened_call_of_ne own).trans h.opened, fun x mem => ?_⟩
        have elsewhere := apart c List.mem_cons_self own x mem
        exact (entry?_call sound fun saved => elsewhere saved.2.2).trans (h.entry x mem)
      obtain ⟨answers, last⟩ := ih apart' (sound.call c) sound' after
      rw [dropped, run_cons]
      refine ⟨?_, last⟩
      unfold answersOf at answers ⊢
      simpa [own] using answers

/-- The session of a file with a snapshot and with those of the insertions that the snapshot can be cut
at. -/
structure Planned (file text : String) (asked : List Edit.Insertion) (s : Edit.Session) : Prop where
  path : s.path = file
  snapshot : s.snapshot = text
  insertions : s.insertions = asked.filter fun i => Text.IsBoundary text.toList i.offset

/-- One more insertion is planned, or refused for its offset. -/
theorem Planned.insert {file text : String} {asked : List Edit.Insertion} {s : Edit.Session}
    (h : Planned file text asked s) (insertion : Edit.Insertion) :
    (∃ longer, s.insert insertion.offset insertion.text insertion.side = .ok longer ∧
        Planned file text (asked ++ [insertion]) longer) ∨
      ∃ refusal, s.insert insertion.offset insertion.text insertion.side = .error refusal ∧
        Planned file text (asked ++ [insertion]) s := by
  by_cases cut : Text.IsBoundary s.snapshot.toList insertion.offset
  · have cut' := cut
    rw [h.snapshot] at cut'
    refine .inl ⟨_, dif_pos cut, h.path, h.snapshot, ?_⟩
    rw [List.filter_append, ← h.insertions]
    simp [cut']
  · have cut' := cut
    rw [h.snapshot] at cut'
    refine .inr ⟨_, dif_neg cut, h.path, h.snapshot, ?_⟩
    rw [List.filter_append, ← h.insertions]
    simp [cut']

/-- **A session that plans its insertions** has just these, whatever other sessions do meanwhile. -/
theorem planned_run {s : Edit.Session} {text : String} {asked : List Edit.Insertion}
    (there : desk.opened i = some s) (planned : Planned (path i) text asked s)
    (planning : ∀ c ∈ calls, c.session = i → ∃ insertion, c.step = .insert insertion) :
    ∃ s', (run w path calls desk).2.opened i = some s' ∧
      Planned (path i) text (asked ++ insertionsOf i calls) s' := by
  induction calls generalizing desk s asked with
  | nil => exact ⟨s, there, by simpa [insertionsOf] using planned⟩
  | cons c calls ih =>
    rw [run_cons]
    have planning' : ∀ c' ∈ calls, c'.session = i → ∃ insertion, c'.step = .insert insertion :=
      fun c' mem => planning c' (List.mem_cons_of_mem c mem)
    by_cases own : c.session = i
    · obtain ⟨insertion, inserting⟩ := planning c List.mem_cons_self own
      have found : c.step.action? w (path c.session) (desk.opened c.session) =
          some (do return some (← Workspace.insert s insertion.offset insertion.text insertion.side)) := by
        rw [inserting, own, there]
        rfl
      have asked_eq : asked ++ insertionsOf i (c :: calls) =
          (asked ++ [insertion]) ++ insertionsOf i calls := by
        simp [insertionsOf, inserting, own]
      rw [asked_eq, call_of_some found]
      rcases planned.insert insertion with ⟨longer, accepted, planned'⟩ | ⟨refusal, refused, planned'⟩
      · refine ih ?_ planned' planning'
        rw [on_bind, Workspace.insert, accepted]
        simp [own, SessionStep.leaves]
      · refine ih ?_ planned' planning'
        rw [on_bind, Workspace.insert, refused]
        simp [own, SessionStep.leaves, inserting, there]
    · have asked_eq : insertionsOf i (c :: calls) = insertionsOf i calls := by
        unfold insertionsOf
        rw [List.filterMap_cons_none]
        split
        next => exact if_neg own
        next => rfl
      rw [asked_eq]
      exact ih ((opened_call_of_ne own).trans there) planned planning'

theorem apply_eq_layout (s : Edit.Session) : s.apply = s.layout := by
  rw [Edit.Session.apply, Edit.Session.edited?_eq_layout]
  rfl

/-- A session that is saved puts its text where its path leads. -/
theorem entry?_of_saved {s : Edit.Session} (sound : Sound w path d desk) (there : desk.opened i = some s)
    (saved : (desk.call w path ⟨i, .save⟩).1 = some (.ok none)) :
    ∃ l, d.Leads (w.pathOf (path i)) l ∧
      entry? (desk.call w path ⟨i, .save⟩).2.disk l = some (.file (.text s.apply)) := by
  obtain ⟨same, l, leads⟩ := sound.own i s there
  have leads_now : desk.disk.Leads (w.pathOf s.path) l := same ▸ leads.of_sameFolders sound.folders
  have found : (⟨i, .save⟩ : Call).step.action? w (path i) (desk.opened i) = some do
      w.save s
      return none := by
    rw [there]
    rfl
  rw [call_of_some found] at saved ⊢
  refine ⟨l, leads, ?_⟩
  rw [on_bind, Workspace.on_save leads_now] at saved ⊢
  cases free : desk.disk.obstacle? l with
  | some why =>
    rw [free] at saved
    cases saved
  | none => exact entry?_put leads.named

/-- **The last session that is saved** on a file wins, with its own snapshot and its own insertions. -/
theorem holds_of_last {text : String} {middle back : List Call} (sound : Sound w path d desk)
    (held : w.Holds desk.disk (path i) text)
    (planning : ∀ c ∈ middle, c.session = i → ∃ insertion, c.step = .insert insertion)
    (saved : ((run w path (⟨i, .start⟩ :: middle) desk).2.call w path ⟨i, .save⟩).1 = some (.ok none))
    (last : ∀ l, d.Leads (w.pathOf (path i)) l → ∀ entry ∈ (run w path back
      ((run w path (⟨i, .start⟩ :: middle) desk).2.call w path ⟨i, .save⟩).2).1,
        ¬ SavedAt w path d l entry) :
    ∃ s, Planned (path i) text (insertionsOf i middle) s ∧
      w.Holds (run w path back
        ((run w path (⟨i, .start⟩ :: middle) desk).2.call w path ⟨i, .save⟩).2).2.disk (path i)
          s.layout := by
  -- the session is started with what the file holds
  have reads : ((do return some (← w.session (path i))) : Action (Option Edit.Session)).on desk.disk =
      (.ok (some (.start (path i) text)), desk.disk) := by
    rw [on_bind, Workspace.session, on_bind, Workspace.read_eq_ok.mpr ⟨rfl, held⟩]
    rfl
  have begun : (desk.call w path ⟨i, .start⟩).2.opened i = some (.start (path i) text) := by
    rw [call_of_some (c := ⟨i, .start⟩) rfl, reads]
    simp [SessionStep.leaves]
  have nothing_asked : Planned (path i) text [] (.start (path i) text) := ⟨rfl, rfl, rfl⟩
  obtain ⟨s, there, planned⟩ := planned_run (w := w) begun nothing_asked planning
  have started : (run w path (⟨i, .start⟩ :: middle) desk).2 =
      (run w path middle (desk.call w path ⟨i, .start⟩).2).2 := by rw [run_cons]
  rw [← started] at there
  have sound_mid := sound.run (⟨i, .start⟩ :: middle)
  obtain ⟨l, leads, written⟩ := entry?_of_saved sound_mid there saved
  -- and nothing is written there afterwards
  have sound_saved := sound_mid.call ⟨i, .save⟩
  have stays := entry?_run sound_saved (last l leads)
  rw [written, apply_eq_layout] at stays
  have sound_last := sound_saved.run back
  exact ⟨s, planned, l, find_of_leads (leads.of_sameFolders sound_last.folders) stays⟩

/-! ### Sessions one after another -/

theorem mem_callsOf : c ∈ callsOf i calls ↔ c ∈ calls ∧ c.session = i := by
  simp [callsOf]

/-- The calls of a session among those of a session. -/
theorem callsOf_callsOf (i j : Nat) (calls : List Call) :
    callsOf i (callsOf j calls) = if j = i then callsOf i calls else [] := by
  split
  next same =>
    subst same
    exact List.filter_eq_self.mpr fun c mem => by simpa using (mem_callsOf.mp mem).2
  next other =>
    refine List.filter_eq_nil_iff.mpr fun c mem => ?_
    rw [(mem_callsOf.mp mem).2]
    simpa using other

/-- Sessions that are run one after another each make their calls. -/
theorem callsOf_flatMap (calls : List Call) {order : List Nat} (once : order.Nodup) (mem : i ∈ order) :
    callsOf i (order.flatMap fun j => callsOf j calls) = callsOf i calls := by
  have split_eq (rest : List Nat) : callsOf i (rest.flatMap fun j => callsOf j calls) =
      rest.flatMap fun j => callsOf i (callsOf j calls) := List.filter_flatMap
  obtain ⟨front, back, rfl⟩ := List.append_of_mem mem
  obtain ⟨_, once_back, elsewhere⟩ := List.nodup_append.mp once
  have none_of {rest : List Nat} (apart : i ∉ rest) :
      (rest.flatMap fun j => callsOf i (callsOf j calls)) = [] := by
    refine List.flatMap_eq_nil_iff.mpr fun j j_mem => ?_
    rw [callsOf_callsOf, if_neg]
    rintro rfl
    exact apart j_mem
  have not_front : i ∉ front := fun i_mem => elsewhere i i_mem i List.mem_cons_self rfl
  rw [split_eq, List.flatMap_append, List.flatMap_cons, none_of not_front,
    none_of (List.nodup_cons.mp once_back).1, callsOf_callsOf, if_pos rfl, List.nil_append,
    List.append_nil]

theorem answersOf_eq_nil (absent : ∀ c ∈ calls, c.session ≠ i) :
    answersOf i (run w path calls desk).1 = [] := by
  rw [answersOf, List.map_eq_nil_iff, List.filter_eq_nil_iff]
  intro entry mem
  simpa using absent _ (mem_of_mem_run mem)

theorem insertionsOf_map (i : Nat) (insertions : List Edit.Insertion) :
    insertionsOf i (insertions.map (⟨i, .insert ·⟩)) = insertions := by
  rw [insertionsOf, List.filterMap_map]
  simp

/-- **A session that is alone** leaves what it planned. -/
theorem holds_of_whole {text : String} {insertions : List Edit.Insertion} (sound : Sound w path d desk)
    (held : w.Holds desk.disk (path i) text)
    (saved : (answersOf i (run w path
      (⟨i, .start⟩ :: (insertions.map (⟨i, .insert ·⟩) ++ [⟨i, .save⟩])) desk).1).getLast? =
        some (some (.ok none))) :
    ∃ s, Planned (path i) text insertions s ∧
      w.Holds (run w path
        (⟨i, .start⟩ :: (insertions.map (⟨i, .insert ·⟩) ++ [⟨i, .save⟩])) desk).2.disk (path i)
          s.layout := by
  obtain ⟨front, front_eq⟩ : ∃ front : List Call,
      front = ⟨i, .start⟩ :: insertions.map (⟨i, .insert ·⟩) := ⟨_, rfl⟩
  have run_eq : run w path (front ++ [⟨i, .save⟩]) desk =
      ((run w path front desk).1 ++ [(⟨i, .save⟩, ((run w path front desk).2.call w path ⟨i, .save⟩).1)],
        ((run w path front desk).2.call w path ⟨i, .save⟩).2) := by
    rw [run_append, run_cons, run_nil]
  rw [← List.cons_append, ← front_eq, run_eq] at saved ⊢
  have last : ((run w path front desk).2.call w path ⟨i, .save⟩).1 = some (.ok none) := by
    unfold answersOf at saved
    simpa using saved
  have planning : ∀ c ∈ insertions.map fun insertion => (⟨i, .insert insertion⟩ : Call),
      c.session = i → ∃ insertion, c.step = .insert insertion := by
    intro c mem _
    obtain ⟨insertion, _, rfl⟩ := List.mem_map.mp mem
    exact ⟨insertion, rfl⟩
  subst front_eq
  have nothing_later : ∀ l, d.Leads (w.pathOf (path i)) l → ∀ entry ∈ (run w path []
      ((run w path (⟨i, .start⟩ :: insertions.map (⟨i, .insert ·⟩)) desk).2.call w path ⟨i, .save⟩).2).1,
        ¬ SavedAt w path d l entry := fun _ _ _ => nofun
  have whole := holds_of_last sound held planning last nothing_later
  rw [insertionsOf_map, run_nil] at whole
  exact whole

/-- A file is to the session what it is on the other desk. -/
theorem Alike.holds {one two : Desk} {text : String} (h : Alike w path d i one two)
    (sound : Sound w path d one) (sound' : Sound w path d two)
    (held : w.Holds two.disk (path i) text) : w.Holds one.disk (path i) text := by
  obtain ⟨l, found⟩ := held
  have leads := (leads_of_find found).of_sameFolders sound'.folders.symm
  have there := h.entry l ⟨l, leads, self_mem_editArea l⟩
  exact ⟨l, find_of_leads (leads.of_sameFolders sound.folders)
    (there.trans (find_eq_ok_file.mp found).2.1)⟩

/-- The paths lead to one file. -/
def SameFile (w : Workspace) (d : Disk) (file file' : String) : Prop :=
  ∃ l, d.Leads (w.pathOf file) l ∧ d.Leads (w.pathOf file') l

theorem mem_of_mem_flatMap_callsOf (calls : List Call) (order : List Nat) :
    ∀ c ∈ order.flatMap fun i => callsOf i calls, c ∈ calls := by
  intro c mem
  obtain ⟨i, _, mem⟩ := List.mem_flatMap.mp mem
  exact (mem_callsOf.mp mem).1

section Apart

variable {order : List Nat} (covers : ∀ c ∈ calls, c.session ∈ order)
  (apart : ∀ i ∈ order, ∀ j ∈ order, i ≠ j → w.Apart d (path i) (path j))

include covers apart

/-- Where the files are apart, a session is alone as far as it can see, in whatever order calls are
made. -/
theorem alike_callsOf (mem : i ∈ order) {calls' : List Call} (among : ∀ c ∈ calls', c ∈ calls) :
    answersOf i (run w path calls' (start d)).1 =
        answersOf i (run w path (callsOf i calls') (start d)).1 ∧
      Alike w path d i (run w path calls' (start d)).2
        (run w path (callsOf i calls') (start d)).2 := by
  have sound := sound_start w path d
  refine alike_run (fun c c_mem other => ?_) sound sound ⟨rfl, fun _ _ => rfl⟩
  rintro x ⟨l, leads, x_mem⟩ ⟨l', leads', x_mem'⟩
  exact (apart i mem c.session (covers c (among c c_mem)) other.symm).disjoint leads leads'
    x x_mem x_mem'

/-- A session answers as if all were run one after another, and as if it were alone. -/
theorem answersOf_flatMap_callsOf (once : order.Nodup) (i : Nat) :
    answersOf i (run w path calls (start d)).1 =
        answersOf i (run w path (order.flatMap fun i => callsOf i calls) (start d)).1 ∧
      answersOf i (run w path calls (start d)).1 =
        answersOf i (run w path (callsOf i calls) (start d)).1 := by
  by_cases mem : i ∈ order
  · have one := (alike_callsOf covers apart mem fun _ c_mem => c_mem).1
    have two := (alike_callsOf covers apart mem (mem_of_mem_flatMap_callsOf calls order)).1
    rw [callsOf_flatMap calls once mem] at two
    exact ⟨one.trans two.symm, one⟩
  · have absent : ∀ c ∈ calls, c.session ≠ i := by
      rintro c c_mem rfl
      exact mem (covers c c_mem)
    have absent_serial : ∀ c ∈ order.flatMap fun i => callsOf i calls, c.session ≠ i :=
      fun c c_mem => absent c (mem_of_mem_flatMap_callsOf calls order c c_mem)
    have absent_own : ∀ c ∈ callsOf i calls, c.session ≠ i :=
      fun c c_mem => absent c (mem_callsOf.mp c_mem).1
    exact ⟨(answersOf_eq_nil absent).trans (answersOf_eq_nil absent_serial).symm,
      (answersOf_eq_nil absent).trans (answersOf_eq_nil absent_own).symm⟩

/-- The disk ends up as if all were run one after another. -/
theorem entry?_flatMap_callsOf (once : order.Nodup) (x : Location) :
    entry? (run w path calls (start d)).2.disk x =
      entry? (run w path (order.flatMap fun i => callsOf i calls) (start d)).2.disk x := by
  by_cases edited : ∃ i ∈ order, x ∈ areaOf w d (path i)
  · obtain ⟨i, mem, x_mem⟩ := edited
    have one := (alike_callsOf covers apart mem fun _ c_mem => c_mem).2.entry x x_mem
    have two := (alike_callsOf covers apart mem (mem_of_mem_flatMap_callsOf calls order)).2.entry x x_mem
    rw [callsOf_flatMap calls once mem] at two
    exact one.trans two.symm
  · have untouched {calls' : List Call} (among : ∀ c ∈ calls', c ∈ calls) :
        entry? (run w path calls' (start d)).2.disk x = d.entry? x := by
      refine entry?_run (sound_start w path d) fun entry mem saved =>
        edited ⟨entry.1.session, ?_, saved.2.2⟩
      exact covers _ (among _ (mem_of_mem_run mem))
    exact (untouched fun _ c_mem => c_mem).trans (untouched (mem_of_mem_flatMap_callsOf calls order)).symm

/-- The file of a session that is saved has just the insertions of that session. -/
theorem holds_of_callsOf {text : String} {insertions : List Edit.Insertion}
    (held : w.Holds d (path i) text)
    (own_calls : callsOf i calls = ⟨i, .start⟩ :: (insertions.map (⟨i, .insert ·⟩) ++ [⟨i, .save⟩]))
    (saved : (answersOf i (run w path calls (start d)).1).getLast? = some (some (.ok none))) :
    ∃ s, Planned (path i) text insertions s ∧
      w.Holds (run w path calls (start d)).2.disk (path i) s.layout := by
  have sound := sound_start w path d
  have mem : i ∈ order := by
    have first : (⟨i, .start⟩ : Call) ∈ callsOf i calls := own_calls ▸ List.mem_cons_self
    exact covers _ (mem_callsOf.mp first).1
  obtain ⟨answers, alike⟩ := alike_callsOf covers apart mem fun _ c_mem => c_mem
  rw [answers, own_calls] at saved
  rw [own_calls] at alike
  obtain ⟨s, planned, held_alone⟩ := holds_of_whole sound held saved
  exact ⟨s, planned, alike.holds (sound.run _) (sound.run _) held_alone⟩

end Apart

/-- **Sessions side by side.**  Where their files are apart, sessions whose steps come in whatever order
answer as if they had been run one after another, in any order, and as if each were alone; the files end
up the same; and the file of a session that is saved has what it had at first, with just the insertions
of that session that can be made.  Where several sessions are on one file, and none of those that are
saved later has it for its temporary file, it ends up as the snapshot of the last session that is saved,
with just the insertions of that session. -/
theorem run_interleaved (w : Workspace) (path : Nat → String) (d : Disk) :
    (∀ (calls : List Call) (order : List Nat), order.Nodup → (∀ c ∈ calls, c.session ∈ order) →
      (∀ i ∈ order, ∀ j ∈ order, i ≠ j → w.Apart d (path i) (path j)) →
      let spread := run w path calls (start d)
      let serial := run w path (order.flatMap fun i => callsOf i calls) (start d)
      (∀ i, answersOf i spread.1 = answersOf i serial.1 ∧
        answersOf i spread.1 = answersOf i (run w path (callsOf i calls) (start d)).1) ∧
      (∀ x, entry? spread.2.disk x = entry? serial.2.disk x) ∧
      ∀ i text insertions, w.Holds d (path i) text →
        callsOf i calls = ⟨i, .start⟩ :: (insertions.map (⟨i, .insert ·⟩) ++ [⟨i, .save⟩]) →
        (answersOf i spread.1).getLast? = some (some (.ok none)) →
        ∃ s, Planned (path i) text insertions s ∧ w.Holds spread.2.disk (path i) s.layout) ∧
    ∀ (i : Nat) (front middle back : List Call) (text : String),
      let opened := (run w path front (start d)).2
      let planned := (run w path (⟨i, .start⟩ :: middle) opened).2
      let saved := planned.call w path ⟨i, .save⟩
      let rest := run w path back saved.2
      w.Holds opened.disk (path i) text →
      (∀ c ∈ middle, c.session = i → ∃ insertion, c.step = .insert insertion) →
      saved.1 = some (.ok none) →
      (∀ c ∈ back, ∀ l l', d.Leads (w.pathOf (path i)) l → d.Leads (w.pathOf (path c.session)) l' →
        l ≠ temporaryAt l') →
      (∀ entry ∈ rest.1, SameFile w d (path i) (path entry.1.session) → entry.1.step = .save →
        entry.2 ≠ some (.ok none)) →
      ∃ s, Planned (path i) text (insertionsOf i middle) s ∧ w.Holds rest.2.disk (path i) s.layout := by
  constructor
  · intro calls order once covers apart spread serial
    exact ⟨answersOf_flatMap_callsOf covers apart once, entry?_flatMap_callsOf covers apart once,
      fun i text insertions => holds_of_callsOf covers apart⟩
  · intro i front middle back text opened planned saved rest held planning done no_sibling last
    refine holds_of_last ((sound_start w path d).run front) held planning done ?_
    rintro l leads entry mem ⟨saving, answered, l', leads', here | temporary⟩
    · subst here
      exact last entry mem ⟨l, leads, leads'⟩ saving answered
    · exact no_sibling _ (mem_of_mem_run mem) l l' leads leads' temporary

/-- Two files, each with two letters. -/
def pairDisk : Disk :=
  { here := []
    entries := [(["a"], .file (.text "ab")), (["b"], .file (.text "cd"))] }

/-- Session 1 is on the second file, all others are on the first one. -/
def pairPath (i : Nat) : String := if i = 1 then "b" else "a"

/-- Two sessions on two files, with their steps in turn; and two sessions on one file, of which one is
saved while the other one is open. -/
theorem run_interleaved_pair :
    let w : Workspace := ⟨.ofString "/"⟩
    let calls : List Call := [⟨0, .start⟩, ⟨1, .start⟩, ⟨0, .insert ⟨1, "x", .left⟩⟩,
      ⟨1, .insert ⟨0, "y", .right⟩⟩, ⟨1, .save⟩, ⟨0, .save⟩]
    let shared : List Call := [⟨2, .start⟩, ⟨0, .start⟩, ⟨2, .insert ⟨0, "z", .left⟩⟩,
      ⟨0, .insert ⟨1, "x", .left⟩⟩, ⟨2, .save⟩, ⟨0, .save⟩, ⟨1, .start⟩, ⟨1, .save⟩]
    (∀ x, entry? (run w pairPath calls (start pairDisk)).2.disk x =
        entry? (run w pairPath (callsOf 0 calls ++ callsOf 1 calls) (start pairDisk)).2.disk x) ∧
      w.Holds (run w pairPath calls (start pairDisk)).2.disk "a" "axb" ∧
      w.Holds (run w pairPath shared (start pairDisk)).2.disk "a" "axb" := by
  intro w calls shared
  have first : pairDisk.Leads (w.pathOf "a") ["a"] :=
    ⟨rfl, by decide +kernel, by simp [pairDisk, entry?]⟩
  have second : pairDisk.Leads (w.pathOf "b") ["b"] :=
    ⟨rfl, by decide +kernel, by simp [pairDisk, entry?]⟩
  have held : w.Holds pairDisk "a" "ab" := ⟨["a"], rfl⟩
  have apart : w.Apart pairDisk "a" "b" := by
    intro l l' leads leads'
    rw [leads.unique first, leads'.unique second]
    decide +kernel
  have layout {s : Edit.Session} (planned : Planned "a" "ab" [⟨1, "x", .left⟩] s) : s.layout = "axb" := by
    rw [Edit.Session.layout, planned.insertions, planned.snapshot]
    decide +kernel
  have facts := run_interleaved w pairPath pairDisk
  obtain ⟨_, same, alone⟩ := facts.1 calls [0, 1] (by decide) (by decide) (by
    intro i i_mem j j_mem other
    simp only [List.mem_cons, List.not_mem_nil, or_false] at i_mem j_mem
    rcases i_mem with rfl | rfl <;> rcases j_mem with rfl | rfl
    · exact absurd rfl other
    · exact apart
    · exact apart.symm
    · exact absurd rfl other)
  obtain ⟨s, planned, ends⟩ := alone 0 "ab" [⟨1, "x", .left⟩] held rfl rfl
  obtain ⟨s', planned', ends'⟩ := facts.2 0 [⟨2, .start⟩]
    [⟨2, .insert ⟨0, "z", .left⟩⟩, ⟨0, .insert ⟨1, "x", .left⟩⟩, ⟨2, .save⟩] [⟨1, .start⟩, ⟨1, .save⟩]
    "ab" ⟨["a"], rfl⟩ (by simp) rfl
    (by
      intro c mem l l' leads leads'
      have other : c.session = 1 := by
        simp only [List.mem_cons, List.not_mem_nil, or_false] at mem
        rcases mem with rfl | rfl <;> rfl
      rw [other] at leads'
      rw [leads.unique first, leads'.unique second]
      decide +kernel)
    (by
      rintro entry mem ⟨l, leads, leads'⟩
      have other : entry.1.session = 1 := by
        have called := mem_of_mem_run mem
        simp only [List.mem_cons, List.not_mem_nil, or_false] at called
        rcases called with same | same <;> rw [same]
      rw [other] at leads'
      have one := leads.unique first
      rw [leads'.unique second] at one
      exact absurd one (by decide))
  have staged : (run w pairPath shared (start pairDisk)).2 = (run w pairPath [⟨1, .start⟩, ⟨1, .save⟩]
      ((run w pairPath (⟨0, .start⟩ :: [⟨2, .insert ⟨0, "z", .left⟩⟩, ⟨0, .insert ⟨1, "x", .left⟩⟩,
        ⟨2, .save⟩]) (run w pairPath [⟨2, .start⟩] (start pairDisk)).2).2.call w pairPath
          ⟨0, .save⟩).2).2 := by
    simp only [shared, run_cons, run_nil]
  rw [layout planned] at ends
  rw [layout planned'] at ends'
  refine ⟨same, ends, ?_⟩
  rw [staged]
  exact ends'

end Desk

end ModelGrid.Store
