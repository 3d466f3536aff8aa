import ModelGrid.Project.Read
import ModelGrid.Proofs.Project.Shape
import ModelGrid.Proofs.Store.Path
import Mathlib.Data.List.DropRight

/-!
# What a workspace file says of a project

A look-up of a project has three ends, and which one it is depends on the text of the workspace file
alone: the text describes no workspace, whatever project is asked for; or it describes one without an
entry of the name; or there is a last entry of the name.  Then the answer depends on the three fields
of that entry, and on nothing else of the text: neither on the white space and the escapes, nor on the
order of the members, on keys that mean nothing, on the form of an array or an object, on earlier
entries of the name or on other projects.

## Main definitions

* `Project.StripsTo`: a path, and the path without the slashes at its end.

## Main results

* `Project.read_of_holds`: the three ends of a look-up, the source root that is found, and that two
  files whose last entries agree are not told apart.
-/

namespace ModelGrid.Project

open Store Store.Action

variable {w w' : Workspace} {d d' : Disk} {file file' text text' name : String}
  {catalog catalog' : Catalog} {record record' : ProjectRecord}

/-! ### The source root -/

/-- The second path is the first one without the slashes at its end. -/
def StripsTo (path stripped : String) : Prop :=
  (∃ n, path.toList = stripped.toList ++ List.replicate n '/') ∧ stripped.toList.getLast? ≠ some '/'

theorem exists_dropTrailing_append (c : Char) (cs : List Char) :
    ∃ n, cs = Text.dropTrailing c cs ++ List.replicate n c := by
  have dropped : cs.rtakeWhile (· == c) = List.replicate (cs.rtakeWhile (· == c)).length c :=
    List.eq_replicate_of_mem fun x mem => by simpa using List.mem_rtakeWhile_imp mem
  refine ⟨(cs.rtakeWhile (· == c)).length, ?_⟩
  rw [← dropped]
  exact List.rdropWhile_append_rtakeWhile.symm

theorem getLast?_dropTrailing_ne (c : Char) (cs : List Char) :
    (Text.dropTrailing c cs).getLast? ≠ some c := by
  intro last
  obtain ⟨ne, last_eq⟩ := List.mem_getLast?_eq_getLast last
  exact List.rdropWhile_last_not (· == c) cs ne (beq_iff_eq.mpr last_eq.symm)

theorem stripsTo_withoutTrailingSlashes (path : String) :
    StripsTo path (ProjectLayout.withoutTrailingSlashes path) := by
  rw [StripsTo, ProjectLayout.withoutTrailingSlashes, String.toList_ofList]
  exact ⟨exists_dropTrailing_append '/' _, getLast?_dropTrailing_ne '/' _⟩

/-- The root of the code is what the file gives, or is derived from the root of the project, and no
slash is at its end. -/
theorem sourceRoot_ofRecord (record : ProjectRecord) :
    (ProjectLayout.ofRecord record).sourceRoot.toList.getLast? ≠ some '/' ∧
      (∀ given, record.sourceRoot = some given →
        StripsTo given (ProjectLayout.ofRecord record).sourceRoot) ∧
      (record.sourceRoot = none → record.root = "" →
        (ProjectLayout.ofRecord record).sourceRoot = "src") ∧
      (record.sourceRoot = none → record.root ≠ "" → ∃ stripped, StripsTo record.root stripped ∧
        (ProjectLayout.ofRecord record).sourceRoot = stripped ++ "/src") := by
  cases given : record.sourceRoot with
  | some path =>
    have root_eq : (ProjectLayout.ofRecord record).sourceRoot =
        ProjectLayout.withoutTrailingSlashes path := by
      rw [ProjectLayout.ofRecord, given]
    rw [root_eq]
    have strips := stripsTo_withoutTrailingSlashes path
    refine ⟨strips.2, fun _ same => ?_, nofun, nofun⟩
    cases same
    exact strips
  | none =>
    have root_eq : (ProjectLayout.ofRecord record).sourceRoot =
        if record.root.isEmpty then "src"
        else ProjectLayout.withoutTrailingSlashes record.root ++ "/src" := by
      rw [ProjectLayout.ofRecord, given]
    rw [root_eq]
    refine ⟨?_, nofun, fun _ empty => ?_, fun _ nonempty => ?_⟩
    · split
      next => decide
      next => simp [String.toList_append]
    · rw [empty]
      rfl
    · rw [if_neg (by simpa using nonempty)]
      exact ⟨_, stripsTo_withoutTrailingSlashes record.root, rfl⟩

/-! ### The look-up -/

/-- A look-up in a file that holds a text depends on the text alone. -/
theorem on_read_of_holds (holds : w.Holds d file text) :
    (Project.read w file name).on d =
      (match Catalog.parse? text with
        | none => .error (.workspaceFileUnparsable file)
        | some catalog =>
          match catalog.entry? name with
          | none => .error (.projectNotFound name)
          | some record => .ok (.ofRecord record), d) := by
  have read := Workspace.read_eq_ok.mpr ⟨rfl, holds⟩
  rw [Project.read, on_bind, on_tryCatch, read]
  dsimp only
  cases Catalog.parse? text with
  | none => rfl
  | some catalog =>
    dsimp only
    cases catalog.entry? name with
    | none => rfl
    | some record => rfl

/-- **What a workspace file says of a project.**  Where the file does not describe a workspace, it cannot
be read, whatever project is asked for; else the project is not found if there is no entry of the name;
else the last entry of the name is what counts.  The source root is what that entry gives, or is derived
from the project's root.  Any other file whose last entry of the name agrees in the three fields has the
same answer. -/
theorem read_of_holds (holds : w.Holds d file text) (name : String) :
    ((Project.read w file name).on d = (.error (.workspaceFileUnparsable file), d) ↔
        ¬ ∃ catalog, DescribesWorkspace text catalog) ∧
      ((Project.read w file name).on d = (.error (.projectNotFound name), d) ↔
        ∃ catalog, DescribesWorkspace text catalog ∧ ∀ project ∈ catalog.projects, project.1 ≠ name) ∧
      ∀ catalog record, DescribesWorkspace text catalog → catalog.LastEntryIs name record →
        ∃ layout, (Project.read w file name).on d = (.ok layout, d) ∧
          layout.sourceRoot.toList.getLast? ≠ some '/' ∧
          (∀ given, record.sourceRoot = some given → StripsTo given layout.sourceRoot) ∧
          (record.sourceRoot = none → record.root = "" → layout.sourceRoot = "src") ∧
          (record.sourceRoot = none → record.root ≠ "" →
            ∃ stripped, StripsTo record.root stripped ∧ layout.sourceRoot = stripped ++ "/src") ∧
          ∀ w' d' file' text' catalog' record', Workspace.Holds w' d' file' text' →
            DescribesWorkspace text' catalog' → catalog'.LastEntryIs name record' →
            record'.root = record.root → record'.sourceRoot = record.sourceRoot →
            record'.projectType = record.projectType →
            (Project.read w' file' name).on d' = (.ok layout, d') := by
  have answer {w d file text catalog record} (holds : Workspace.Holds w d file text)
      (describes : DescribesWorkspace text catalog) (last : catalog.LastEntryIs name record) :
      (Project.read w file name).on d = (.ok (.ofRecord record), d) := by
    rw [on_read_of_holds holds, Catalog.parse?_eq_some_iff.mpr describes]
    dsimp only
    rw [Catalog.entry?_eq_some_iff.mpr last]
  refine ⟨?_, ?_, fun catalog record describes last => ?_⟩
  · simp only [on_read_of_holds holds, ← Catalog.parse?_eq_some_iff]
    cases Catalog.parse? text with
    | none => simp
    | some catalog =>
      cases found : catalog.entry? name with
      | none => simp [found]
      | some record => simp [found]
  · simp only [on_read_of_holds holds, ← Catalog.parse?_eq_some_iff, ← Catalog.entry?_eq_none_iff]
    cases Catalog.parse? text with
    | none => simp
    | some catalog =>
      cases found : catalog.entry? name with
      | none => simp [found]
      | some record => simp [found]
  · have ⟨no_slash, given, src, derived⟩ := sourceRoot_ofRecord record
    refine ⟨.ofRecord record, answer holds describes last, no_slash, given, src, derived, ?_⟩
    intro w' d' file' text' catalog' record' holds' describes' last' root sourceRoot projectType
    -- an entry has no more than the three fields
    have same : record' = record := by
      cases record
      cases record'
      cases root
      cases sourceRoot
      cases projectType
      rfl
    exact same ▸ answer holds' describes' last'

/-- A workspace of one project, which is described twice; with members that mean nothing, escapes, and
half of a surrogate pair where it does not matter. -/
def namedText : String :=
  "\x7b \"version\": [1, -2.5e+3, \x7b\"x\": null\x7d],\n \"projects\": \x7b\"ui\": \x7b\"root\": \"old\"\x7d, " ++
    "\"ui\": \x7b\"tag\": \"\\ud800\", \"projectType\": null, \"root\": \"lib\\u002fui//\"\x7d\x7d\x7d"

/-- The same project as an array of its fields, and another one. -/
def orderedText : String :=
  "[\x7b\"ui\":[\"lib/ui//\",null,null],\"app\":[\"\",\"s\",\"application\"]\x7d]"

/-- A project, and an entry that is none. -/
def illTypedText : String :=
  "\x7b\"projects\": \x7b\"ui\": \x7b\x7d, \"app\": \x7b\"root\": null\x7d\x7d\x7d"

def spellingDisk : Disk where
  here := []
  entries :=
    [(["a"], .file (.text namedText)), (["b"], .file (.text orderedText)),
      (["c"], .file (.text illTypedText))]

/-- Two spellings of one project have one answer, and the file with an entry that is none has no answer
for any project. -/
theorem read_of_holds_spellings :
    let w : Workspace := ⟨.ofString "/"⟩
    (∃ layout, (Project.read w "a" "ui").on spellingDisk = (.ok layout, spellingDisk) ∧
      (Project.read w "b" "ui").on spellingDisk = (.ok layout, spellingDisk) ∧
      ∃ stripped, StripsTo "lib/ui//" stripped ∧ layout.sourceRoot = stripped ++ "/src") ∧
    ((Project.read w "b" "x").on spellingDisk = (.error (.projectNotFound "x"), spellingDisk)) ∧
    ∀ name, (Project.read w "c" name).on spellingDisk =
      (.error (.workspaceFileUnparsable "c"), spellingDisk) := by
  intro w
  have named : DescribesWorkspace namedText
      ⟨[("ui", ⟨"old", none, none⟩), ("ui", ⟨"lib/ui//", none, none⟩)]⟩ :=
    Catalog.parse?_eq_some_iff.mp (by decide +kernel)
  have ordered : DescribesWorkspace orderedText
      ⟨[("ui", ⟨"lib/ui//", none, none⟩), ("app", ⟨"", some "s", some "application"⟩)]⟩ :=
    Catalog.parse?_eq_some_iff.mp (by decide +kernel)
  have illTyped : Catalog.parse? illTypedText = none := by decide +kernel
  have held : w.Holds spellingDisk "a" namedText := ⟨["a"], rfl⟩
  have held' : w.Holds spellingDisk "b" orderedText := ⟨["b"], rfl⟩
  have held'' : w.Holds spellingDisk "c" illTypedText := ⟨["c"], rfl⟩
  refine ⟨?_, ?_, fun name => ?_⟩
  · obtain ⟨layout, run, -, -, -, derived, others⟩ := (read_of_holds held "ui").2.2 _
      ⟨"lib/ui//", none, none⟩ named ⟨[("ui", ⟨"old", none, none⟩)], [], rfl, nofun⟩
    refine ⟨layout, run, ?_, derived rfl (by decide)⟩
    exact others _ _ _ _ _ _ held' ordered ⟨[], [_], rfl, by simp⟩ rfl rfl rfl
  · exact (read_of_holds held' "x").2.1.mpr ⟨_, ordered, by simp⟩
  · refine (read_of_holds held'' name).1.mpr fun ⟨catalog, describes⟩ => ?_
    rw [Catalog.parse?_eq_some_iff.mpr describes] at illTyped
    cases illTyped

end ModelGrid.Project
