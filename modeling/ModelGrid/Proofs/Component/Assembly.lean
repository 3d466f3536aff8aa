import ModelGrid.Component.Assembly
import ModelGrid.Proofs.AngularModule.Position
import ModelGrid.Proofs.Edit.Order
import ModelGrid.Proofs.Store.Workspace

/-!
# Edits of an assembly

On files with a well-formed tree, whatever the tree is, an assembly inserts between characters and
outside of tokens and comments, so that no insertion is refused.

## Main definitions

* `asInsertion`: what a planned addition inserts.
* `NeverRefuses`: no insertion of an action is refused.
* `writeAnew`: a file is made and a text is inserted into it.

## Main results

* `ends_insertAt`, `ends_register`: edits of well-formed files.
* `cuts_of_wellFormed`: where an assembly inserts.
-/

namespace ModelGrid.Component

open Store Edit Syntax Syntax.Node AngularModule Store.Action Store.Workspace

variable {w : Workspace} {b : Blueprint} {d : Disk} {file : Document}

/-- What a planned addition inserts. -/
def asInsertion (addition : Addition) : Insertion := ⟨addition.offset, addition.text, .left⟩

/-- No insertion of the action is refused. -/
def NeverRefuses (action : Action Unit) (d : Disk) : Prop :=
  ∀ refusal, (action.on d).1 ≠ .error (.invalidEdit refusal)

/-- The fault is no refusal of an insertion. -/
abbrev NoRefusal (fault : Fault) (_ : Disk) : Prop := ∀ refusal, fault ≠ .invalidEdit refusal

theorem neverRefuses_of_ends {action : Action Unit} {good : Unit → Disk → Prop}
    (ends : action.Ends d good NoRefusal) : NeverRefuses action d := by
  intro refusal failed
  unfold Ends at ends
  split at ends
  next result => rw [result] at failed; cases failed
  next fault after result =>
    rw [result] at failed
    cases failed
    exact ends refusal rfl

/-! ### Edits of well-formed files -/

/-- What is planned for a well-formed file is planned between two of its characters. -/
theorem isBoundary_of_mem_plan {className importPath : String} {a : Addition}
    (wellFormed : WellFormed file.text file.root)
    (mem : a ∈ Registration.plan file className importPath) : Text.IsBoundary file.text a.offset :=
  (Registration.isEdge_of_mem_plan wellFormed mem).isBoundary wellFormed

/-- A session on a well-formed file has none of its planned additions refused. -/
theorem exists_insertAll_of_plan {className importPath snapshot : String} {additions : List Addition}
    (path : String) (wellFormed : WellFormed file.text file.root) (same : snapshot.toList = file.text)
    (planned : ∀ a ∈ additions, a ∈ Registration.plan file className importPath) :
    ∃ s, (Session.start path snapshot).insertAll (additions.map asInsertion) = .ok s := by
  refine Session.insertAll_of_isBoundary fun i mem => ?_
  obtain ⟨a, a_mem, rfl⟩ := List.mem_map.mp mem
  have boundary := isBoundary_of_mem_plan wellFormed (planned a a_mem)
  rw [← same] at boundary
  exact boundary

/-- An edit at an anchor of a well-formed file is not refused. -/
theorem ends_insertAt {path : String} {anchor : Anchor} {text : String}
    (wellFormed : ∀ held, w.Holds d path held →
      WellFormed (Document.parse held).text (Document.parse held).root) :
    (insertAt w path anchor text).Ends d (fun _ _ => True) NoRefusal := by
  unfold insertAt
  refine ends_bind ((ends_session w path d).weaken fun _ _ outside => outside.2) ?_
  rintro s after ⟨rfl, held, holds, rfl⟩
  split
  next => exact ends_throw fun _ => by simp
  next offset found =>
    have formed := wellFormed held holds
    have boundary := (Anchor.isEdge_of_offset? formed.ordered found).isBoundary formed
    rw [Document.text_parse] at boundary
    refine ends_bind ((ends_insert boundary text .right after).weaken fun _ _ outside => outside.2) ?_
    rintro longer _ ⟨rfl, -⟩
    exact ((ends_save w longer _).weaken fun _ _ outside => outside.2).mono fun _ _ _ => trivial

/-- Insertions between characters are all made. -/
theorem ends_insertAdditions {s : Session} {additions : List Addition}
    (boundary : ∀ a ∈ additions, Text.IsBoundary s.snapshot.toList a.offset) :
    (insertAdditions s additions).Ends d
      (fun last after => after = d ∧ s.insertAll (additions.map asInsertion) = .ok last) Outside := by
  induction additions generalizing s with
  | nil => exact ends_pure ⟨rfl, rfl⟩
  | cons addition rest ih =>
    unfold insertAdditions
    refine ends_bind (ends_insert (boundary addition List.mem_cons_self) addition.text .left d) ?_
    rintro longer _ ⟨rfl, accepted⟩
    have same := (Session.insert_eq_ok accepted).1
    refine (ih fun a mem => same ▸ boundary a (List.mem_cons_of_mem addition mem)).mono ?_
    rintro last _ ⟨rfl, later⟩
    refine ⟨rfl, ?_⟩
    rw [List.map_cons, Session.insertAll, asInsertion, accepted]
    exact later

/-- A registration in a well-formed file is not refused. -/
theorem ends_register
    (wellFormed : ∀ held, w.Holds d b.moduleFile held →
      WellFormed (Document.parse held).text (Document.parse held).root) :
    (register w b).Ends d (fun _ _ => True) NoRefusal := by
  unfold register
  refine ends_bind ((ends_session w b.moduleFile d).weaken fun _ _ outside => outside.2) ?_
  rintro s after ⟨rfl, held, holds, rfl⟩
  have formed := wellFormed held holds
  have boundary : ∀ a ∈ Registration.plan (Document.parse held) b.className b.importPath,
      Text.IsBoundary held.toList a.offset := by
    intro a mem
    have between := isBoundary_of_mem_plan formed mem
    rwa [Document.text_parse] at between
  refine ends_bind ((ends_insertAdditions boundary).weaken fun _ _ outside => outside.2) ?_
  rintro last _ ⟨rfl, -⟩
  exact ((ends_save w last _).weaken fun _ _ outside => outside.2).mono fun _ _ _ => trivial

/-- A file that is not there is made, and the text is inserted into it. -/
def writeAnew (w : Workspace) (path text : String) : Action Unit := do
  w.create path ""
  let session ← w.session path
  w.save (← Workspace.insert session 0 text .left)

/-- What is written anew is inserted at the top of the file. -/
theorem ends_writeAnew (w : Workspace) (path text : String) (d : Disk) :
    (writeAnew w path text).Ends d (fun _ _ => True) NoRefusal := by
  refine ends_bind ((ends_create w path "" d).weaken fun _ _ outside => outside.2) ?_
  rintro _ after -
  refine ends_bind ((ends_session w path after).weaken fun _ _ outside => outside.2) ?_
  rintro s _ ⟨rfl, held, -, rfl⟩
  have top : Text.IsBoundary (Session.start path held).snapshot.toList 0 := by
    cases (Session.start path held).snapshot.toList <;> rfl
  refine ends_bind ((ends_insert top text .left _).weaken fun _ _ outside => outside.2) ?_
  rintro longer _ ⟨rfl, -⟩
  exact ((ends_save w longer _).weaken fun _ _ outside => outside.2).mono fun _ _ _ => trivial

/-- What is written in place of a file is written anew. -/
theorem ends_writeInterface (w : Workspace) (b : Blueprint) (ps : List Model.Property) (d : Disk) :
    (writeInterface w b ps).Ends d (fun _ _ => True) NoRefusal := by
  unfold writeInterface
  refine ends_get_bind ?_
  split
  next =>
    refine ends_bind ((ends_delete w b.interfaceFile d).weaken fun _ _ outside => outside.2) ?_
    rintro _ after -
    exact ends_writeAnew w b.interfaceFile _ after
  next => exact ends_writeAnew w b.interfaceFile _ d

/-! ### Where an assembly inserts -/

/-- **Where an assembly inserts** in a file with a well-formed tree.  Anchors and planned additions cut
the file between characters, outside of tokens and comments; no two additions are planned for one
offset, so that their order makes no difference; every text that is looked at lies between two
characters of the file and has its ends in order, with room for the brackets where there are some; and
no step of the assembly has an insertion refused. -/
theorem cuts_of_wellFormed (wellFormed : WellFormed file.text file.root) :
    (∀ (anchor : Anchor) (offset : Nat), anchor.offset? file = some offset → Cuts file offset) ∧
    (∀ className importPath,
      (∀ a ∈ Registration.plan file className importPath, Cuts file a.offset) ∧
      ((Registration.plan file className importPath).Pairwise fun a b => a.offset ≠ b.offset) ∧
      ∀ (path snapshot : String) (order : List Addition), snapshot.toList = file.text →
        order.Perm (Registration.plan file className importPath) →
        ∃ s s', (Session.start path snapshot).insertAll
            ((Registration.plan file className importPath).map asInsertion) = .ok s ∧
          (Session.start path snapshot).insertAll (order.map asInsertion) = .ok s' ∧
          s'.edited? = s.edited?) ∧
    (∀ p : Place, p.IsIn file.root →
      p.leadingStart ≤ p.node.start ∧ p.node.start ≤ p.node.stop ∧
      Text.IsBoundary file.text p.leadingStart ∧ Text.IsBoundary file.text p.node.start ∧
      Text.IsBoundary file.text p.node.stop ∧
      (p.node.kind = .array ∨ p.node.kind = .object ∨ p.node.kind = .namedImports →
        p.node.start + 2 ≤ p.node.stop)) ∧
    ∀ (w : Workspace) (b : Blueprint) (formatting : Formatting) (ps : List Model.Property) (d : Disk),
      ((∀ held, w.Holds d b.serviceFile held → Document.parse held = file) →
        NeverRefuses (addColumns w b ps) d) ∧
      ((∀ held, w.Holds d b.constantsFile held → Document.parse held = file) →
        NeverRefuses (addRow w b formatting ps) d) ∧
      ((∀ held, w.Holds d b.moduleFile held → Document.parse held = file) →
        NeverRefuses (register w b) d) ∧
      NeverRefuses (writeInterface w b ps) d := by
  have formed {d : Disk} {w : Workspace} {path : String}
      (is_file : ∀ held, w.Holds d path held → Document.parse held = file) (held : String)
      (holds : w.Holds d path held) :
      WellFormed (Document.parse held).text (Document.parse held).root := by
    rw [is_file held holds]
    exact wellFormed
  have ordered := wellFormed.ordered
  refine ⟨?anchors, ?additions, ?texts, ?steps⟩
  case anchors =>
    intro anchor offset found
    exact cuts_of_isEdge wellFormed (Anchor.isEdge_of_offset? ordered found)
  case additions =>
    intro className importPath
    have cuts : ∀ a ∈ Registration.plan file className importPath, Cuts file a.offset := by
      intro a mem
      exact cuts_of_isEdge wellFormed (Registration.isEdge_of_mem_plan wellFormed mem)
    have distinct := Registration.pairwise_offset_ne_plan wellFormed className importPath
    refine ⟨cuts, distinct, fun path snapshot order same perm => ?_⟩
    obtain ⟨s, accepted⟩ := exists_insertAll_of_plan path wellFormed same fun _ mem => mem
    obtain ⟨s', accepted'⟩ := exists_insertAll_of_plan path wellFormed same fun _ mem =>
      perm.subset mem
    have distinct' : ((Registration.plan file className importPath).map asInsertion).Pairwise
        fun a b => a.offset ≠ b.offset := List.pairwise_map.mpr distinct
    exact ⟨s, s', accepted, accepted',
      Session.edited?_eq_of_perm distinct' (perm.map asInsertion) accepted accepted'⟩
  case texts =>
    intro p there
    have p_formed := wellFormed.isIn there.node
    exact ⟨Place.leadingStart_le there ordered, p_formed.ordered.le,
      (Place.isEdge_leadingStart there ordered).isBoundary wellFormed,
      (IsEdge.start there.node).isBoundary wellFormed,
      (IsEdge.stop there.node).isBoundary wellFormed,
      fun kind => (Registration.bracketed_of_wellFormed p_formed kind).room p_formed.ordered⟩
  case steps =>
    intro w b formatting ps d
    exact ⟨fun is_file => neverRefuses_of_ends (ends_insertAt (formed is_file)),
      fun is_file => neverRefuses_of_ends (ends_insertAt (formed is_file)),
      fun is_file => neverRefuses_of_ends (ends_register (formed is_file)),
      neverRefuses_of_ends (ends_writeInterface w b ps d)⟩

/-- A module file without anything to spare, and an addition in front of its last brace. -/
theorem cuts_of_wellFormed_shared :
    let file := Document.parse "@NgModule(\x7b\x7d)"
    (Registration.plan file "A" "./a").map Addition.offset = [11, 0] ∧
      ∀ a ∈ Registration.plan file "A" "./a", Cuts file a.offset := by
  intro file
  have wellFormed : WellFormed file.text file.root := wellFormed_of_checks _ (by decide +kernel)
  exact ⟨by decide +kernel, ((cuts_of_wellFormed wellFormed).2.1 "A" "./a").1⟩

end ModelGrid.Component
