import ModelGrid.Component.Generate
import ModelGrid.Proofs.Component.Assembly
import ModelGrid.Proofs.Component.Layout
import ModelGrid.Proofs.Component.Run
import ModelGrid.Proofs.Component.Template
import ModelGrid.Proofs.Store.Path

/-!
# What a run leaves on the disk

The files of a component have different names, and none of them has the name of a temporary file, so
that each step of an assembly leaves alone what the others wrote.  Only the module file may be of any
name; it is told apart by its location.

## Main definitions

* `Blueprint.generated`: the paths of a component's files, with their extensions.
* `Rewritten`: a step gave a file a new text and left all files of other names alone.
* `Generated`: what the files of a component hold in the end.

## Main results

* `Blueprint.getLast?_ne`, `Blueprint.not_temporary`: the names of the files.
* `ends_writeAll`: the skeletons are written.
* `ends_assemble`: the assembly of skeletons never misses an anchor.
* `generated_of_generate`: what a run leaves.
-/

namespace ModelGrid.Component

open Store Edit Syntax Store.Action Store.Workspace Disk

variable {w : Workspace} {b : Blueprint} {d d' : Disk}

/-! ### The names of the files -/

/-- The name has an extension behind its first dot. -/
def HasExtension (name extension : String) : Prop :=
  ∃ stem : List Char, '.' ∉ stem ∧ '/' ∉ stem ∧ name.toList = stem ++ '.' :: extension.toList

theorem HasExtension.ne {name name' extension extension' : String}
    (h : HasExtension name extension) (h' : HasExtension name' extension')
    (ne : extension ≠ extension') : name ≠ name' := by
  obtain ⟨stem, no_dot, _, eq⟩ := h
  obtain ⟨stem', no_dot', _, eq'⟩ := h'
  rintro rfl
  rw [eq] at eq'
  exact ne (String.toList_inj.mp (Text.append_cons_inj no_dot no_dot' eq').2)

/-- A component's name in paths has neither dots nor slashes. -/
theorem not_mem_of_isDashed {cs : List Char} (dashed : Naming.IsDashed cs) : '.' ∉ cs ∧ '/' ∉ cs := by
  constructor <;> intro mem <;> rcases dashed _ mem with alphanumeric | same
  · revert alphanumeric; decide
  · revert same; decide
  · revert alphanumeric; decide
  · revert same; decide

namespace Blueprint

/-- The path of the component's class. -/
def classFile (b : Blueprint) : String := b.targetFolder ++ "/" ++ (b.dashedName ++ ".component.ts")

/-- The path of the component's markup. -/
def markupFile (b : Blueprint) : String := b.targetFolder ++ "/" ++ (b.dashedName ++ ".component.html")

/-- The paths of a component's files, with the extensions of their names. -/
def generated (b : Blueprint) : List (String × String) :=
  [(b.classFile, "component.ts"), (b.markupFile, "component.html"), (b.serviceFile, "service.ts"),
   (b.constantsFile, "component.constants.ts"), (b.interfaceFile, "ts")]

/-- The names are of letters, digits and hyphens, and those that are words begin with a letter. -/
structure Named (b : Blueprint) : Prop where
  component : Naming.IsComponentName b.componentName
  model : Naming.IsModelName b.modelName

theorem isDashed_dashedName (named : b.Named) : Naming.IsDashed b.dashedName.toList :=
  Naming.isDashed_kebabCase (Naming.isNameChar_of_isComponentName named.component)

theorem isDashed_modelFileName (named : b.Named) : Naming.IsDashed (kebabCase b.modelName).toList :=
  Naming.isDashed_kebabCase (Naming.isNameChar_of_isModelName named.model)

/-- The path of a component's file is made of a folder and a name with the extension. -/
theorem exists_name {path extension : String} (named : b.Named)
    (mem : (path, extension) ∈ b.generated) :
    ∃ name, path = b.targetFolder ++ "/" ++ name ∧ HasExtension name extension := by
  obtain ⟨no_dot, no_slash⟩ := not_mem_of_isDashed (isDashed_dashedName named)
  obtain ⟨no_dot', no_slash'⟩ := not_mem_of_isDashed (isDashed_modelFileName named)
  simp only [generated, List.mem_cons, Prod.mk.injEq, List.not_mem_nil, or_false] at mem
  rcases mem with ⟨rfl, rfl⟩ | ⟨rfl, rfl⟩ | ⟨rfl, rfl⟩ | ⟨rfl, rfl⟩ | ⟨rfl, rfl⟩
  · exact ⟨_, rfl, b.dashedName.toList, no_dot, no_slash, by simp⟩
  · exact ⟨_, rfl, b.dashedName.toList, no_dot, no_slash, by simp⟩
  · refine ⟨b.dashedName ++ "-data.service.ts", by simp [serviceFile, String.append_assoc],
      b.dashedName.toList ++ ['-', 'd', 'a', 't', 'a'], ?_, ?_, by simp⟩
    · simp [no_dot]
    · simp [no_slash]
  · exact ⟨b.dashedName ++ ".component.constants.ts", by simp [constantsFile, String.append_assoc],
      b.dashedName.toList, no_dot, no_slash, by simp⟩
  · exact ⟨kebabCase b.modelName ++ ".ts", by simp [interfaceFile, String.append_assoc],
      (kebabCase b.modelName).toList, no_dot', no_slash', by simp⟩

theorem getLast?_of_mem_generated {path extension : String} (named : b.Named) (w : Workspace)
    (mem : (path, extension) ∈ b.generated) :
    ∃ name, (w.pathOf path).segments.getLast? = some name ∧ HasExtension name extension := by
  obtain ⟨name, rfl, stem, no_dot, no_slash, eq⟩ := exists_name named mem
  have plain : '/' ∉ extension.toList := by
    simp only [generated, List.mem_cons, Prod.mk.injEq, List.not_mem_nil, or_false] at mem
    rcases mem with ⟨-, rfl⟩ | ⟨-, rfl⟩ | ⟨-, rfl⟩ | ⟨-, rfl⟩ | ⟨-, rfl⟩ <;> simp
  refine ⟨name, getLast?_pathOf (by simp [eq]) ?_, stem, no_dot, no_slash, eq⟩
  simp [eq, no_slash, plain]

/-- **The files of a component have different names.** -/
theorem getLast?_ne {path path' extension extension' : String} (named : b.Named) (w : Workspace)
    (mem : (path, extension) ∈ b.generated) (mem' : (path', extension') ∈ b.generated)
    (ne : extension ≠ extension') :
    (w.pathOf path).segments.getLast? ≠ (w.pathOf path').segments.getLast? := by
  obtain ⟨name, last, has⟩ := getLast?_of_mem_generated named w mem
  obtain ⟨name', last', has'⟩ := getLast?_of_mem_generated named w mem'
  rw [last, last']
  exact fun same => has.ne has' ne (Option.some.inj same)

/-- **No file of a component has the name of a temporary file.** -/
theorem not_temporary {path extension : String} (named : b.Named) (w : Workspace)
    (mem : (path, extension) ∈ b.generated) (front : String) :
    (w.pathOf path).segments.getLast? ≠ some (front ++ temporarySuffix) := by
  obtain ⟨name, last, stem, _, _, eq⟩ := getLast?_of_mem_generated named w mem
  rw [last]
  intro same
  have whole : stem ++ '.' :: extension.toList = front.toList ++ temporarySuffix.toList := by
    rw [← eq, Option.some.inj same, String.toList_append]
  have ends := congrArg List.getLast? whole
  simp only [generated, List.mem_cons, Prod.mk.injEq, List.not_mem_nil, or_false] at mem
  rcases mem with ⟨-, rfl⟩ | ⟨-, rfl⟩ | ⟨-, rfl⟩ | ⟨-, rfl⟩ | ⟨-, rfl⟩ <;>
    simp [temporarySuffix] at ends

end Blueprint

/-! ### Steps that rewrite a file -/

/-- The file has a new text, and nothing was done to files that have neither its name nor that of a
temporary file. -/
structure Rewritten (w : Workspace) (path text : String) (before after : Disk) : Prop where
  holds : w.Holds after path text
  changes : ∃ S, ChangesWithin S before after ∧ ∀ l ∈ S,
    l.getLast? = (w.pathOf path).segments.getLast? ∨
      ∃ front, l.getLast? = some (front ++ temporarySuffix)

/-- A step that rewrites one of the files leaves the others alone. -/
theorem Rewritten.holds_other {path path' extension extension' text text' : String}
    (h : Rewritten w path text d d') (named : b.Named) (mem : (path, extension) ∈ b.generated)
    (mem' : (path', extension') ∈ b.generated) (ne : extension' ≠ extension)
    (held : w.Holds d path' text') : w.Holds d' path' text' := by
  obtain ⟨S, changes, near⟩ := h.changes
  refine held.of_names changes fun l l_mem same => ?_
  rcases near l l_mem with of_file | ⟨front, temporary⟩
  · exact b.getLast?_ne named w mem' mem ne (same.symm.trans of_file)
  · exact b.not_temporary named w mem' front (same.symm.trans temporary)

/-- What is inserted behind the front of a text. -/
theorem apply_insert {path text front back : String} {side : Side} {s : Session}
    (accepted : (Session.start path (front ++ back)).insert (Text.size front.toList) text side =
      .ok s) : s.path = path ∧ s.apply = front ++ text ++ back := by
  obtain ⟨same, made⟩ := Session.insert_eq_ok accepted
  have same_path : s.path = path := by
    rw [Session.insert] at accepted
    split at accepted
    next =>
      cases accepted
      rfl
    next => cases accepted
  refine ⟨same_path, ?_⟩
  have one : s.insertions = [⟨Text.size front.toList, text, side⟩] := made
  have snapshot : s.snapshot.toList = front.toList ++ back.toList := by
    rw [same, Session.start, String.toList_append]
  rw [Session.apply, Session.edited?, one, snapshot]
  simp only [Session.sorted, List.foldl_cons, List.foldl_nil, Session.place, Session.weave?,
    Nat.not_lt_zero, if_false, Nat.sub_zero, Text.splitAt?_size_append, Option.map_some,
    Option.getD_some]
  rw [← String.toList_inj]
  simp

/-- What is inserted into an empty text is all that there is. -/
theorem apply_insert_empty {path text : String} {side : Side} {s : Session}
    (accepted : (Session.start path "").insert 0 text side = .ok s) : s.path = path ∧ s.apply = text := by
  have at_front : (Session.start path ("" ++ "")).insert (Text.size "".toList) text side = .ok s :=
    accepted
  obtain ⟨same_path, applied⟩ := apply_insert at_front
  exact ⟨same_path, by rw [applied, String.empty_append, String.append_empty]⟩

theorem isBoundary_size (front back : String) :
    Text.IsBoundary (front ++ back).toList (Text.size front.toList) := by
  rw [String.toList_append]
  exact Option.isSome_iff_exists.mpr ⟨_, Text.splitAt?_size_append _ _⟩

/-- **Saving a session** rewrites its file. -/
theorem ends_save_rewritten (w : Workspace) (s : Session) (d : Disk) :
    (w.save s).Ends d (fun _ after => Rewritten w s.path s.apply d after) Outside := by
  refine (ends_save w s d).mono ?_
  rintro _ after ⟨l, temporary, found, suffixed, changes⟩
  refine ⟨⟨l, found⟩, _, changes, ?_⟩
  rintro x (rfl | rfl)
  · obtain ⟨front, ends⟩ := Path.exists_getLast?_append (w.pathOf s.path) temporarySuffix
    exact .inr ⟨front, suffixed.trans ends⟩
  · exact .inl (getLast?_of_resolve (find_eq_ok_file.mp found).1)

/-- **An edit at an anchor that is there** puts the text in, behind the front of the file. -/
theorem ends_insertAt_front {path text front back : String} {anchor : Anchor}
    (holds : w.Holds d path (front ++ back))
    (anchored : anchor.offset? (Document.parse (front ++ back)) = some (Text.size front.toList)) :
    (insertAt w path anchor text).Ends d
      (fun _ after => Rewritten w path (front ++ text ++ back) d after) Outside := by
  unfold insertAt
  refine ends_bind (ends_session w path d) ?_
  rintro s after ⟨rfl, held, held_holds, rfl⟩
  obtain rfl := held_holds.eq holds
  have offset : anchor.offset? (Document.parse (Session.start path (front ++ back)).snapshot) =
      some (Text.size front.toList) := anchored
  simp only [offset]
  have boundary : Text.IsBoundary (Session.start path (front ++ back)).snapshot.toList
    (Text.size front.toList) := isBoundary_size front back
  refine ends_bind (ends_insert boundary text .right after) ?_
  rintro longer _ ⟨rfl, accepted⟩
  obtain ⟨same_path, applied⟩ := apply_insert accepted
  refine (ends_save_rewritten w longer _).mono fun _ final rewritten => ?_
  rw [same_path, applied] at rewritten
  exact rewritten

/-! ### The steps of an assembly -/

/-- The fault is no missed anchor. -/
abbrev NoMiss (fault : Fault) (_ : Disk) : Prop := ∀ anchor, fault ≠ .anchorNotFound anchor

/-- Insertions keep the path of a session, or end in a refusal. -/
theorem ends_insertAdditions_path (additions : List AngularModule.Addition) (s : Session) (d : Disk) :
    (insertAdditions s additions).Ends d (fun last after => after = d ∧ last.path = s.path) NoMiss := by
  induction additions generalizing s with
  | nil => exact ends_pure ⟨rfl, rfl⟩
  | cons addition rest ih =>
    have inserted : (Workspace.insert s addition.offset addition.text .left).Ends d
        (fun longer after => after = d ∧ longer.path = s.path) NoMiss := by
      unfold Workspace.insert Session.insert
      split
      next longer accepted =>
        split at accepted
        next =>
          cases accepted
          exact ends_pure ⟨rfl, rfl⟩
        next => cases accepted
      next => exact ends_throw fun _ => by simp
    unfold insertAdditions
    refine ends_bind inserted ?_
    rintro longer _ ⟨rfl, same⟩
    refine (ih longer).mono ?_
    rintro last _ ⟨rfl, same'⟩
    exact ⟨rfl, same'.trans same⟩

/-- A registration changes the module file, and a temporary one beside it. -/
theorem ends_register_module (w : Workspace) (b : Blueprint) (d : Disk) :
    (register w b).Ends d
      (fun _ after => ∃ l temporary, after.resolve (w.pathOf b.moduleFile) = .ok (.named l) ∧
        (∃ front, temporary.getLast? = some (front ++ temporarySuffix)) ∧
        ChangesWithin {temporary, l} d after) NoMiss := by
  unfold register
  refine ends_bind ((ends_session w b.moduleFile d).weaken fun _ _ outside => outside.1) ?_
  rintro s after ⟨rfl, held, -, rfl⟩
  refine ends_bind (ends_insertAdditions_path _ _ after) ?_
  rintro last _ ⟨rfl, same⟩
  refine ((ends_save w last _).weaken fun _ _ outside => outside.1).mono ?_
  rintro _ final ⟨l, temporary, found, suffixed, changes⟩
  have module_path : last.path = b.moduleFile := same
  rw [module_path] at found suffixed
  obtain ⟨front, ends⟩ := Path.exists_getLast?_append (w.pathOf b.moduleFile) temporarySuffix
  exact ⟨l, temporary, (find_eq_ok_file.mp found).1, ⟨front, suffixed.trans ends⟩, changes⟩

/-- A file that is written anew holds the text; what was changed before it belongs to its path. -/
theorem ends_writeAnew_rewritten (w : Workspace) (path text : String) {d before : Disk} {S : Set Location}
    (changes : ChangesWithin S d before)
    (near : ∀ l ∈ S, l.getLast? = (w.pathOf path).segments.getLast?) :
    (writeAnew w path text).Ends before (fun _ after => Rewritten w path text d after) Outside := by
  refine ends_bind (ends_create w path "" before) ?_
  rintro _ created ⟨l, found, created_changes⟩
  refine ends_bind (ends_session w path created) ?_
  rintro s _ ⟨rfl, held, holds, rfl⟩
  obtain rfl : held = "" := holds.eq ⟨l, found⟩
  have boundary : Text.IsBoundary (Session.start path "").snapshot.toList 0 := isBoundary_size "" ""
  refine ends_bind (ends_insert boundary text .left _) ?_
  rintro longer _ ⟨rfl, accepted⟩
  obtain ⟨same_path, applied⟩ := apply_insert_empty accepted
  refine (ends_save_rewritten w longer _).mono fun _ final rewritten => ?_
  rw [same_path, applied] at rewritten
  obtain ⟨T, saved_changes, saved_near⟩ := rewritten.changes
  refine ⟨rewritten.holds, _, (changes.trans created_changes).trans saved_changes, ?_⟩
  rintro x ((x_mem | rfl) | x_mem)
  · exact .inl (near x x_mem)
  · exact .inl (getLast?_of_resolve (find_eq_ok_file.mp found).1)
  · exact saved_near x x_mem

/-- **An interface is written anew**, whatever its file held. -/
theorem ends_writeInterface_anew (w : Workspace) (b : Blueprint) (ps : List Model.Property) (d : Disk) :
    (writeInterface w b ps).Ends d
      (fun _ after => Rewritten w b.interfaceFile (Contribution.interfaceDeclaration b.modelName ps) d
        after) Outside := by
  unfold writeInterface
  refine ends_get_bind ?_
  split
  next =>
    refine ends_bind (ends_delete w b.interfaceFile d) ?_
    rintro _ after ⟨l, old, found, changes⟩
    refine ends_writeAnew_rewritten w b.interfaceFile _ changes ?_
    rintro x rfl
    exact getLast?_of_resolve (find_eq_ok_file.mp found).1
  next => exact ends_writeAnew_rewritten w b.interfaceFile _ (.refl ∅ d) fun l mem => mem.elim

/-! ### The skeletons -/

/-- What follows the anchor of a data service. -/
def serviceBack : String := "\n\t\treturn stringIndexerHelper;\n\t\x7d\n\x7d\n"

/-- What follows the anchor of the constants. -/
def constantsBack : String := "\n\x7d;\n"

/-- A skeleton with the values of a blueprint. -/
def Blueprint.skeleton (b : Blueprint) (pieces : List Piece) : String :=
  b.values.render (Piece.template pieces)

/-- **Files are written** in a folder, each with its skeleton; nothing is done to files of other
names. -/
theorem ends_writeAll (w : Workspace) (folder : String) (p : Values) {files : List (String × List Piece)}
    (d : Disk) (nodup : (files.map Prod.fst).Nodup)
    (plain : ∀ f ∈ files, f.1.toList ≠ [] ∧ '/' ∉ f.1.toList) :
    (Skeleton.writeAll w folder p files).Ends d
      (fun _ after =>
        (∀ f ∈ files, w.Holds after (folder ++ "/" ++ f.1) (p.render (Piece.template f.2))) ∧
        ∃ S, ChangesWithin S d after ∧ ∀ l ∈ S, ∃ f ∈ files, l.getLast? = some f.1) Outside := by
  induction files generalizing d with
  | nil => exact ends_pure ⟨by simp, ∅, .refl ∅ d, by simp⟩
  | cons file rest ih =>
    obtain ⟨ne, no_slash⟩ := plain file List.mem_cons_self
    rw [List.map_cons, List.nodup_cons] at nodup
    unfold Skeleton.writeAll
    refine ends_bind (ends_overwrite w _ _ d) ?_
    rintro _ mid ⟨l, found, changes⟩
    refine ends_bind (ih mid nodup.2 fun f mem => plain f (List.mem_cons_of_mem file mem)) ?_
    rintro paths after ⟨later, S, later_changes, names⟩
    have name : (w.pathOf (folder ++ "/" ++ file.1)).segments.getLast? = some file.1 :=
      getLast?_pathOf ne no_slash
    refine ends_pure ⟨?_, _, changes.trans later_changes, ?_⟩
    · intro f mem
      rcases List.mem_cons.mp mem with rfl | mem
      · have held : w.Holds mid (folder ++ "/" ++ f.1) (p.render (Piece.template f.2)) := ⟨l, found⟩
        refine held.of_names later_changes fun x x_mem same => ?_
        obtain ⟨g, g_mem, g_name⟩ := names x x_mem
        rw [name, g_name] at same
        exact nodup.1 (Option.some.inj same ▸ List.mem_map_of_mem g_mem)
      · exact later f mem
    · rintro x (rfl | x_mem)
      · refine ⟨file, List.mem_cons_self, ?_⟩
        rw [← name]
        exact getLast?_of_resolve (find_eq_ok_file.mp found).1
      · obtain ⟨g, g_mem, g_name⟩ := names x x_mem
        exact ⟨g, List.mem_cons_of_mem file g_mem, g_name⟩

/-- The files that a run writes first hold their skeletons. -/
structure Written (w : Workspace) (b : Blueprint) (d : Disk) : Prop where
  service : w.Holds d b.serviceFile (b.skeleton Skeleton.dataService)
  constants : w.Holds d b.constantsFile (b.skeleton Skeleton.constants)
  componentClass : w.Holds d b.classFile (b.skeleton Skeleton.componentClass)
  markup : w.Holds d b.markupFile (b.skeleton Skeleton.componentMarkup)

theorem written_of_write {files : List String} (named : b.Named)
    (run : (Skeleton.write w b.targetFolder b.values).on d = (.ok files, d')) : Written w b d' := by
  have dashed : b.values.dashedName = b.dashedName := rfl
  obtain ⟨no_dot, no_slash⟩ := not_mem_of_isDashed (b.isDashed_dashedName named)
  have nodup : ((Skeleton.files b.values).map Prod.fst).Nodup := by
    simp [Skeleton.files, ← String.toList_inj]
  have plain : ∀ f ∈ Skeleton.files b.values, f.1.toList ≠ [] ∧ '/' ∉ f.1.toList := by
    simp [Skeleton.files, dashed, no_slash]
  obtain ⟨holds, -⟩ := (ends_writeAll w b.targetFolder b.values d nodup plain).of_on run
  have service := holds (b.dashedName ++ "-data.service.ts", Skeleton.dataService)
    (by simp [Skeleton.files, dashed])
  have constants := holds (b.dashedName ++ ".component.constants.ts", Skeleton.constants)
    (by simp [Skeleton.files, dashed])
  rw [← String.append_assoc] at service constants
  exact ⟨service, constants,
    holds (b.dashedName ++ ".component.ts", Skeleton.componentClass) (by simp [Skeleton.files, dashed]),
    holds (b.dashedName ++ ".component.html", Skeleton.componentMarkup)
      (by simp [Skeleton.files, dashed])⟩

/-- The values of a blueprint are words where the skeletons have words. -/
theorem fit_values (named : b.Named) : b.values.Fit :=
  ⟨Naming.isCapitalized_pascalCase named.component, named.model, b.isDashed_modelFileName named⟩

/-- Values without braces open no marker. -/
theorem opensNone_value (named : b.Named) (m : Marker) : OpensNone (b.values.value m).toList := by
  have plain {cs : List Char} (chars : ∀ c ∈ cs, Naming.IsNameChar c) : OpensNone cs := by
    refine opensNone_of_not_mem fun mem => ?_
    rcases chars _ mem with alphanumeric | same | same
    · revert alphanumeric; decide
    · revert same; decide
    · revert same; decide
  have of_dashed {cs : List Char} (dashed : Naming.IsDashed cs) : OpensNone cs :=
    plain fun c mem => (dashed c mem).imp id .inl
  cases m with
  | name => exact plain (Naming.isNameChar_of_isComponentName named.component)
  | dashedName => exact of_dashed (b.isDashed_dashedName named)
  | className =>
    exact plain (Naming.isNameChar_of_isModelName (Naming.isCapitalized_pascalCase named.component))
  | modelName => exact plain (Naming.isNameChar_of_isModelName named.model)
  | modelFileName => exact of_dashed (b.isDashed_modelFileName named)

-- a literal is taken for its characters first; to evaluate its decoding would take long

theorem plain_dataService : ∀ piece ∈ Skeleton.dataService, piece.Plain := by
  simp only [Skeleton.dataService, List.forall_mem_cons, List.not_mem_nil, false_imp_iff,
    implies_true, Piece.Plain, String.toList_append, true_and, and_true]
  repeat rw [String.toList_ofList]
  and_intros <;> decide +kernel

theorem plain_constants : ∀ piece ∈ Skeleton.constants, piece.Plain := by
  simp only [Skeleton.constants, List.forall_mem_cons, List.not_mem_nil, false_imp_iff,
    implies_true, Piece.Plain, String.toList_append, true_and, and_true]
  repeat rw [String.toList_ofList]
  and_intros <;> decide +kernel

/-- What a data service has in front of its anchor. -/
def Blueprint.serviceFront (b : Blueprint) : String :=
  String.ofList (Stretch.text (Layout.dataServiceFront b.values))

/-- What the constants have in front of the brace at their anchor. -/
def Blueprint.constantsFront (b : Blueprint) : String :=
  String.ofList (Stretch.text (Layout.constantsFront b.values).dropLast)

theorem toList_serviceFront (b : Blueprint) :
    b.serviceFront.toList = Stretch.text (Layout.dataServiceFront b.values) :=
  String.toList_ofList

theorem toList_serviceBack : serviceBack.toList = Stretch.text Layout.dataServiceBack := by
  decide +kernel

theorem toList_constantsFront (b : Blueprint) :
    (b.constantsFront ++ "\x7b").toList = Stretch.text (Layout.constantsFront b.values) := by
  have brace : Layout.constantsFront b.values =
      (Layout.constantsFront b.values).dropLast ++ [Stretch.mark .openBrace "\x7b"] := rfl
  conv_rhs => rw [brace]
  rw [Stretch.text_append, String.toList_append, Blueprint.constantsFront, String.toList_ofList]
  rfl

theorem toList_constantsBack : constantsBack.toList = Stretch.text Layout.constantsBack := by
  decide +kernel

/-- The skeleton of a data service, cut at its anchor. -/
theorem skeleton_dataService (named : b.Named) :
    b.skeleton Skeleton.dataService = b.serviceFront ++ serviceBack ∧
      Anchor.offset? .beforeReturn (Document.parse (b.serviceFront ++ serviceBack)) =
        some (Text.size b.serviceFront.toList) := by
  have rendered : b.skeleton Skeleton.dataService = Piece.filled b.values Skeleton.dataService :=
    render_template plain_dataService (opensNone_value named)
  have cut : Piece.filled b.values Skeleton.dataService = b.serviceFront ++ serviceBack := by
    rw [← String.toList_inj, ← Layout.text_dataService, Stretch.text_append, String.toList_append,
      toList_serviceFront, toList_serviceBack]
  refine ⟨rendered.trans cut, ?_⟩
  rw [← cut, toList_serviceFront]
  exact Layout.offset?_dataService (fit_values named) [] Layout.scans_dataServiceBack
    (Layout.statementsUpTo_nil _) (Layout.text_dataService b.values).symm

/-- The skeleton of the constants, cut at its anchor. -/
theorem skeleton_constants (named : b.Named) :
    b.skeleton Skeleton.constants = b.constantsFront ++ "\x7b" ++ constantsBack ∧
      Anchor.offset? .arrowBodyStart (Document.parse (b.constantsFront ++ "\x7b" ++ constantsBack)) =
        some (Text.size (b.constantsFront ++ "\x7b").toList) := by
  have rendered : b.skeleton Skeleton.constants = Piece.filled b.values Skeleton.constants :=
    render_template plain_constants (opensNone_value named)
  have cut : Piece.filled b.values Skeleton.constants =
      b.constantsFront ++ "\x7b" ++ constantsBack := by
    rw [← String.toList_inj, ← Layout.text_constants, Stretch.text_append, String.toList_append,
      toList_constantsFront, toList_constantsBack]
  refine ⟨rendered.trans cut, ?_⟩
  rw [← cut, toList_constantsFront]
  exact Layout.offset?_constants (fit_values named) [] Layout.scans_constantsBack
    (Layout.statementsIn_nil _) (Layout.text_constants b.values).symm

/-! ### The assembly -/

/-- The module file is none of the files of the component. -/
def Apart (w : Workspace) (b : Blueprint) (d : Disk) : Prop :=
  ∀ l, d.resolve (w.pathOf b.moduleFile) = .ok (.named l) →
    ∀ file ∈ b.generated, d.resolve (w.pathOf file.1) ≠ .ok (.named l)

/-- What the files of a component hold in the end. -/
structure Generated (w : Workspace) (b : Blueprint) (formatting : Formatting)
    (ps : List Model.Property) (d : Disk) : Prop where
  /-- The columns stand in front of the line of the `return`. -/
  service : ∃ front, b.skeleton Skeleton.dataService = front ++ serviceBack ∧
    w.Holds d b.serviceFile (front ++ Contribution.columnBlock ps ++ serviceBack)
  /-- The row stands behind the brace of the mapping function. -/
  constants : ∃ front, b.skeleton Skeleton.constants = front ++ "\x7b" ++ constantsBack ∧
    w.Holds d b.constantsFile
      (front ++ "\x7b" ++ Contribution.rowBlock formatting ps ++ constantsBack)
  interface : w.Holds d b.interfaceFile (Contribution.interfaceDeclaration b.modelName ps)
  componentClass : w.Holds d b.classFile (b.skeleton Skeleton.componentClass)
  markup : w.Holds d b.markupFile (b.skeleton Skeleton.componentMarkup)

/-- **The assembly of skeletons** never misses an anchor.  Where it succeeds, and the module file is
none of the files of the component, these hold what they should. -/
theorem ends_assemble (named : b.Named) (formatting : Formatting) (ps : List Model.Property)
    (written : Written w b d) :
    (assemble w b formatting ps).Ends d
      (fun _ after => Apart w b after → Generated w b formatting ps after) NoMiss := by
  obtain ⟨service_eq, service_anchor⟩ := skeleton_dataService named
  obtain ⟨constants_eq, constants_anchor⟩ := skeleton_constants named
  have service_mem : (b.serviceFile, "service.ts") ∈ b.generated := by simp [Blueprint.generated]
  have constants_mem : (b.constantsFile, "component.constants.ts") ∈ b.generated := by
    simp [Blueprint.generated]
  have class_mem : (b.classFile, "component.ts") ∈ b.generated := by simp [Blueprint.generated]
  have markup_mem : (b.markupFile, "component.html") ∈ b.generated := by simp [Blueprint.generated]
  have interface_mem : (b.interfaceFile, "ts") ∈ b.generated := by simp [Blueprint.generated]
  unfold assemble
  -- the columns
  refine ends_bind ((ends_insertAt_front (service_eq ▸ written.service) service_anchor).weaken
    fun _ _ outside => outside.1) ?_
  rintro _ columns service_done
  have constants₁ := service_done.holds_other named service_mem constants_mem (by decide)
    written.constants
  have class₁ := service_done.holds_other named service_mem class_mem (by decide) written.componentClass
  have markup₁ := service_done.holds_other named service_mem markup_mem (by decide) written.markup
  -- the row
  refine ends_bind ((ends_insertAt_front (constants_eq ▸ constants₁) constants_anchor).weaken
    fun _ _ outside => outside.1) ?_
  rintro _ row constants_done
  have service₂ := constants_done.holds_other named constants_mem service_mem (by decide)
    service_done.holds
  have class₂ := constants_done.holds_other named constants_mem class_mem (by decide) class₁
  have markup₂ := constants_done.holds_other named constants_mem markup_mem (by decide) markup₁
  -- the registration
  refine ends_bind (ends_register_module w b row) ?_
  rintro _ registered ⟨l, temporary, module_leads, ⟨tmp, tmp_name⟩, changes⟩
  -- the interface
  refine ((ends_writeInterface_anew w b ps registered).weaken fun _ _ outside => outside.1).mono ?_
  rintro _ after interface_done apart
  obtain ⟨S, last_changes, -⟩ := interface_done.changes
  have stays {path extension text : String} (mem : (path, extension) ∈ b.generated)
      (held : w.Holds row path text) : w.Holds registered path text := by
    refine held.of_changesWithin changes ?_
    rintro x (rfl | rfl) leads
    · exact b.not_temporary named w mem tmp ((getLast?_of_resolve leads).symm.trans tmp_name)
    · have module_last := last_changes.resolve_eq module_leads
      exact apart x module_last _ mem (last_changes.resolve_eq (changes.resolve_eq leads))
  refine ⟨⟨_, service_eq, ?_⟩, ⟨_, constants_eq, ?_⟩, interface_done.holds, ?_, ?_⟩
  · exact interface_done.holds_other named interface_mem service_mem (by decide)
      (stays service_mem service₂)
  · exact interface_done.holds_other named interface_mem constants_mem (by decide)
      (stays constants_mem constants_done.holds)
  · exact interface_done.holds_other named interface_mem class_mem (by decide) (stays class_mem class₂)
  · exact interface_done.holds_other named interface_mem markup_mem (by decide)
      (stays markup_mem markup₂)

/-- **What a run leaves.**  A run that has settled its blueprint, read the model and written the
skeletons never misses an anchor.  If it succeeds, and the module file is none of the files of the
component, then the data service is its skeleton with the columns in front of the line of its
`return`, the constants are their skeleton with the row behind the brace of the mapping function, the
interface is the one of the model, and the class and the markup are their skeletons. -/
theorem generated_of_generate {settings : Settings} {request : Request} {ps : List Model.Property}
    {files : List String} {settled modelled written : Disk}
    (settling : (settle w settings request).on d = (.ok b, settled))
    (modelling : (readModel request.modelFile).on settled = (.ok ps, modelled))
    (writing : (Skeleton.write w b.targetFolder b.values).on modelled = (.ok files, written))
    (named : b.Named) :
    (∀ anchor, ((generate w settings request).on d).1 ≠ .error (.anchorNotFound anchor)) ∧
    ∀ report d', (generate w settings request).on d = (.ok report, d') → Apart w b d' →
      report = ⟨b, ps, files⟩ ∧ Generated w b settings.formatting ps d' := by
  have ends := ends_assemble named settings.formatting ps (written_of_write named writing)
  have run : (generate w settings request).on d =
      ((assemble w b settings.formatting ps >>= fun _ => pure (Report.mk b ps files)) :
        Action Report).on written := by
    unfold generate
    rw [on_bind, settling]
    dsimp only
    rw [on_bind, modelling]
    dsimp only
    rw [on_bind, writing]
  have whole : ((assemble w b settings.formatting ps >>= fun _ => pure (Report.mk b ps files)) :
      Action Report).Ends written (fun report after => report = ⟨b, ps, files⟩ ∧
        (Apart w b after → Generated w b settings.formatting ps after)) NoMiss :=
    ends_bind ends fun _ _ done => ends_pure ⟨rfl, done⟩
  rw [run]
  unfold Ends at whole
  constructor
  · intro anchor missed
    split at whole
    next result =>
      rw [result] at missed
      cases missed
    next fault after result =>
      rw [result] at missed
      cases missed
      exact whole anchor rfl
  · intro report d' succeeded apart
    rw [succeeded] at whole
    exact ⟨whole.1, whole.2 apart⟩

theorem named_dottedBlueprint : dottedBlueprint.Named :=
  ⟨⟨'x', [], by simp [dottedBlueprint], by decide, by simp⟩,
    ⟨'D', [], by simp [dottedBlueprint], by decide, by simp⟩⟩

/-- A run for a model with one property. -/
theorem generated_of_generate_dotted :
    let ps : List Model.Property := [⟨"b", .number, "A"⟩]
    let outcome := (generate ⟨.ofString "/"⟩ {} dottedRequest).on dottedDisk
    (∀ anchor, outcome.1 ≠ .error (.anchorNotFound anchor)) ∧
      ∀ report d', outcome = (.ok report, d') → Apart ⟨.ofString "/"⟩ dottedBlueprint d' →
        Generated ⟨.ofString "/"⟩ dottedBlueprint {} ps d' := by
  intro ps outcome
  have modelling := eq_mk_of_fst_eq (p := (readModel dottedRequest.modelFile).on
    ((settle ⟨.ofString "/"⟩ {} dottedRequest).on dottedDisk).2) (a := .ok ps) (by decide +kernel)
  have writing := eq_mk_of_fst_eq (p := (Skeleton.write ⟨.ofString "/"⟩ dottedBlueprint.targetFolder
    dottedBlueprint.values).on ((readModel dottedRequest.modelFile).on
      ((settle ⟨.ofString "/"⟩ {} dottedRequest).on dottedDisk).2).2)
    (a := .ok ["s/x/x.component.ts", "s/x/x.component.html", "s/x/x-data.service.ts",
      "s/x/x.component.constants.ts"]) (by decide +kernel)
  have facts := generated_of_generate settle_dotted modelling writing named_dottedBlueprint
  exact ⟨facts.1, fun report d' run apart => (facts.2 report d' run apart).2⟩

end ModelGrid.Component
