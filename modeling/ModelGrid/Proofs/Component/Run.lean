import ModelGrid.Component.Generate
import ModelGrid.Proofs.AngularModule.ImportPath
import ModelGrid.Proofs.AngularModule.Registration
import ModelGrid.Proofs.Store.Workspace

/-!
# Runs that succeed

A run that succeeds is a run of each of its steps, each on the disk that the step before left.

## Main definitions

* `Stages`: the disks that a run passes through.

## Main results

* `stages_of_generate`: a run that succeeds passes through them.
* `resolveImport_of_settle`: where the import of a component leads.
-/

namespace ModelGrid.Component

open Store Model AngularModule

variable {w : Workspace} {b : Blueprint} {settings : Settings} {request : Request} {d d' : Disk}

/-- The disks that a run passes through from its first disk to its last. -/
structure Stages (w : Workspace) (settings : Settings) (request : Request) (d : Disk)
    (report : Report) (d' : Disk) where
  settled : Disk
  modelled : Disk
  written : Disk
  columns : Disk
  row : Disk
  registered : Disk
  settling : (settle w settings request).on d = (.ok report.blueprint, settled)
  modelling : (readModel request.modelFile).on settled = (.ok report.properties, modelled)
  writing : (Skeleton.write w report.blueprint.targetFolder report.blueprint.values).on modelled =
    (.ok report.files, written)
  addingColumns : (addColumns w report.blueprint report.properties).on written = (.ok (), columns)
  addingRow : (addRow w report.blueprint settings.formatting report.properties).on columns =
    (.ok (), row)
  registering : (register w report.blueprint).on row = (.ok (), registered)
  describing : (writeInterface w report.blueprint report.properties).on registered = (.ok (), d')

/-- **A run that succeeds** passes through its stages. -/
theorem stages_of_generate {report : Report}
    (run : (generate w settings request).on d = (.ok report, d')) :
    Nonempty (Stages w settings request d report d') := by
  obtain ⟨b, settled, settling, run⟩ := Action.on_bind_eq_ok.mp run
  obtain ⟨ps, modelled, modelling, run⟩ := Action.on_bind_eq_ok.mp run
  obtain ⟨files, written, writing, run⟩ := Action.on_bind_eq_ok.mp run
  obtain ⟨⟨⟩, last, assembling, run⟩ := Action.on_bind_eq_ok.mp run
  cases run
  obtain ⟨⟨⟩, columns, addingColumns, run⟩ := Action.on_bind_eq_ok.mp assembling
  obtain ⟨⟨⟩, row, addingRow, run⟩ := Action.on_bind_eq_ok.mp run
  obtain ⟨⟨⟩, registered, registering, describing⟩ := Action.on_bind_eq_ok.mp run
  exact ⟨⟨settled, modelled, written, columns, row, registered, settling, modelling, writing,
    addingColumns, addingRow, registering, describing⟩⟩

/-- Stages that succeed make a run. -/
theorem Stages.generate {report : Report} (stages : Stages w settings request d report d') :
    (generate w settings request).on d = (.ok report, d') := by
  obtain ⟨settled, modelled, written, columns, row, registered, settling, modelling, writing,
    addingColumns, addingRow, registering, describing⟩ := stages
  have assembling : (assemble w report.blueprint settings.formatting report.properties).on written =
      (.ok (), d') :=
    Action.on_bind_eq_ok.mpr ⟨(), columns, addingColumns, Action.on_bind_eq_ok.mpr
      ⟨(), row, addingRow, Action.on_bind_eq_ok.mpr ⟨(), registered, registering, describing⟩⟩⟩
  exact Action.on_bind_eq_ok.mpr ⟨_, settled, settling, Action.on_bind_eq_ok.mpr
    ⟨_, modelled, modelling, Action.on_bind_eq_ok.mpr ⟨_, written, writing,
      Action.on_bind_eq_ok.mpr ⟨(), d', assembling, Action.on_pure report d'⟩⟩⟩⟩

/-- A registration edits the text that the module file has. -/
theorem register_eq_ok (run : (register w b).on d = (.ok (), d')) :
    ∃ text read inserted session,
      (w.read b.moduleFile).on d = (.ok text, read) ∧
      (insertAdditions (.start b.moduleFile text)
        (Registration.plan (Syntax.Document.parse text) b.className b.importPath)).on read =
        (.ok session, inserted) ∧
      (w.save session).on inserted = (.ok (), d') := by
  obtain ⟨start, read, opening, run⟩ := Action.on_bind_eq_ok.mp run
  obtain ⟨text, _, reading, start_eq⟩ := Action.on_bind_eq_ok.mp opening
  cases start_eq
  obtain ⟨session, inserted, inserting, saving⟩ := Action.on_bind_eq_ok.mp run
  exact ⟨text, read, inserted, session, reading, inserting, saving⟩

/-- The paths of the files that are written. -/
theorem eq_map_of_writeAll {folder : String} {p : Values} {files : List (String × List Piece)}
    {paths : List String} (run : (Skeleton.writeAll w folder p files).on d = (.ok paths, d')) :
    paths = files.map fun file => folder ++ "/" ++ file.1 := by
  induction files generalizing d paths with
  | nil =>
    cases run
    rfl
  | cons file rest ih =>
    obtain ⟨⟨⟩, _, _, run⟩ := Action.on_bind_eq_ok.mp run
    obtain ⟨later, _, writing, run⟩ := Action.on_bind_eq_ok.mp run
    cases run
    rw [List.map_cons, ih writing]

theorem componentStem_append_ext (b : Blueprint) :
    b.componentStem ++ ".ts" = b.targetFolder ++ "/" ++ (b.dashedName ++ ".component.ts") := by
  have ext : ".component" ++ ".ts" = ".component.ts" := by decide
  rw [Blueprint.componentStem, String.append_assoc, ext, String.append_assoc]

/-- **Where the import of a component leads.**  A run with the blueprint writes the class of the
component; what it inserts into the module file to import it is a name in an import that is there, or a
statement with the path of the blueprint.  This path leads from the module file to the class, without
the extension, if and only if the folder of the module file, from where it parts from the way to the
class, is written in names only. -/
theorem resolveImport_of_settle {settled : Disk}
    (settling : (settle w settings request).on d = (.ok b, settled)) :
    (∀ report d', (generate w settings request).on d = (.ok report, d') →
      report.blueprint = b ∧ b.componentStem ++ ".ts" ∈ report.files ∧
      ∃ (stages : Stages w settings request d report d') (read : Disk) (text : String),
        (w.read b.moduleFile).on stages.row = (.ok text, read) ∧
        ∀ addition, Registration.importAddition? (Syntax.Document.parse text) b.className.toList
            b.importPath.toList = some addition →
          (∃ existing ∈ Registration.imports (Syntax.Document.parse text),
            existing.path = b.importPath.toList) ∨
          Registration.importStatement b.className.toList b.importPath.toList <:+:
            addition.text.toList) ∧
    (resolveImport b.moduleFile b.importPath =
        normalizeSegments (Path.segmentsOf b.componentStem.toList) ↔
      ∀ segment ∈ offWay (Path.segmentsOf b.moduleFile.toList).dropLast
        (Path.segmentsOf b.componentStem.toList), IsName segment) := by
  refine ⟨fun report d' run => ?_, resolveImport_relativeImport_iff b.moduleFile b.componentStem⟩
  obtain ⟨stages⟩ := stages_of_generate run
  have same : report.blueprint = b := by
    have both := stages.settling
    rw [settling] at both
    cases both
    rfl
  obtain ⟨text, read, _, _, reading, _, _⟩ := register_eq_ok stages.registering
  refine ⟨same, ?_, stages, read, text, same ▸ reading, fun addition added => ?_⟩
  · rw [eq_map_of_writeAll stages.writing, same, componentStem_append_ext]
    exact List.mem_map.mpr ⟨_, List.mem_cons_self, rfl⟩
  · rcases Registration.importAddition?_eq_some added with ⟨existing, mem, path, _⟩ | ⟨_, statement⟩
    · exact .inl ⟨existing, mem, path⟩
    · exact .inr statement

/-! ### A dot in front of the module file -/

/-- A workspace with a project whose code is in the folder `.`. -/
def dottedDisk : Disk :=
  { here := []
    entries :=
      [(["angular.json"],
          .file (.text "\x7b\"projects\":\x7b\"a\":\x7b\"sourceRoot\":\".\"\x7d\x7d\x7d")),
       (["app.module.ts"], .file (.text "@NgModule(\x7b\x7d)")),
       (["D.cs"], .file (.text "[Column(\"A\")]\npublic int B \x7bget; set;\x7d"))] }

def dottedRequest : Request :=
  { name := "x", project := "a", modelFile := "D.cs", path := some "s" }

/-- The blueprint that is settled in the workspace. -/
def dottedBlueprint : Blueprint := ⟨"D", "x", "s/x", "./app.module.ts"⟩

theorem settle_dotted :
    (settle ⟨.ofString "/"⟩ {} dottedRequest).on dottedDisk =
      (.ok dottedBlueprint, ((settle ⟨.ofString "/"⟩ {} dottedRequest).on dottedDisk).2) :=
  eq_mk_of_fst_eq (by decide +kernel)

/-- What is said of the import of a component in the workspace. -/
theorem resolveImport_of_settle_dotted :
    let b := dottedBlueprint
    ((settle ⟨.ofString "/"⟩ {} dottedRequest).on dottedDisk).1 = .ok b ∧
    (∀ report d', (generate ⟨.ofString "/"⟩ {} dottedRequest).on dottedDisk = (.ok report, d') →
      report.blueprint = b ∧ b.componentStem ++ ".ts" ∈ report.files) ∧
    (resolveImport b.moduleFile b.importPath =
        normalizeSegments (Path.segmentsOf b.componentStem.toList) ↔
      ∀ segment ∈ offWay (Path.segmentsOf b.moduleFile.toList).dropLast
        (Path.segmentsOf b.componentStem.toList), IsName segment) := by
  have facts := resolveImport_of_settle settle_dotted
  refine ⟨congrArg Prod.fst settle_dotted, fun report d' run => ?_, facts.2⟩
  obtain ⟨same, written, -⟩ := facts.1 report d' run
  exact ⟨same, written⟩

/-- The import of a component in the workspace leads out of it, as if the folder `.` were one step
down. -/
theorem resolveImport_ne_of_dotted :
    ((settle ⟨.ofString "/"⟩ {} dottedRequest).on dottedDisk).1 = .ok dottedBlueprint ∧
      dottedBlueprint.importPath = "../s/x/x.component" ∧
      resolveImport dottedBlueprint.moduleFile dottedBlueprint.importPath ≠
        normalizeSegments (Path.segmentsOf dottedBlueprint.componentStem.toList) :=
  ⟨congrArg Prod.fst settle_dotted, by decide +kernel, by decide +kernel⟩

end ModelGrid.Component
