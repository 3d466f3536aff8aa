import ModelGrid.Project.Description
import ModelGrid.Proofs.Json.Reader
import Mathlib.Data.List.Forall2
import Mathlib.Data.Option.Basic

/-!
# The shape of a workspace file

What it is for a JSON value to describe the projects of a workspace, said without a reader: which
members there may be, how often, and what stands under them.

Three things differ between the places of a value.  A key that means something stands in an object once
at most, and every other key as often as one likes, with any value.  The names of projects all mean
something, and may be repeated; then every entry has to be one of a project, though only the last one
counts.  And as all keys of an object are read before it is known what they mean, each is a text.

## Main definitions

* `Project.FieldIs`: what the members of an object say of one field.
* `Project.DescribesProject`, `Project.DescribesProjects`, `Project.DescribesCatalog`: a value
  describes a project, the projects of a workspace, and a workspace.
* `Project.DescribesWorkspace`: a text does.
* `Project.Catalog.LastEntryIs`: the entry that counts for a name.

## Main results

* `Project.Catalog.parse?_eq_some_iff`: the texts that are read are those that describe a workspace.
* `Project.Catalog.entry?_eq_some_iff`, `Project.Catalog.entry?_eq_none_iff`: the last entry counts.
-/

namespace ModelGrid.Project

variable {α : Type} {members : List (Option String × Json)} {key : String}

/-! ### Descriptions -/

/-- The value is a string with this text. -/
def IsText (value : Json) (text : String) : Prop :=
  value = .string (some text)

/-- The value is null for no text, or a string with the text. -/
def IsOptionalText (value : Json) : Option String → Prop
  | none => value = .null
  | some text => IsText value text

/-- What the members of an object say of a field.  Its key stands there once at most; without it the
field is the default. -/
def FieldIs (members : List (Option String × Json)) (key : String) (means : Json → α → Prop)
    (default field : α) : Prop :=
  (∀ member ∈ members, member.1 ≠ some key) ∧ field = default ∨
    ∃ front value back, members = front ++ (some key, value) :: back ∧
      (∀ member ∈ front ++ back, member.1 ≠ some key) ∧ means value field

/-- Every key is a text. -/
def HasTextKeys (members : List (Option String × Json)) : Prop :=
  ∀ member ∈ members, ∃ key, member.1 = some key

/-- The value describes a project, by the names of its fields or by their order. -/
inductive DescribesProject : Json → ProjectRecord → Prop
  | inOrder {root sourceRoot projectType record} (root_is : IsText root record.root)
      (sourceRoot_is : IsOptionalText sourceRoot record.sourceRoot)
      (projectType_is : IsOptionalText projectType record.projectType) :
      DescribesProject (.array [root, sourceRoot, projectType]) record
  | byName {members record} (keys : HasTextKeys members)
      (root_is : FieldIs members "root" IsText "" record.root)
      (sourceRoot_is : FieldIs members "sourceRoot" IsOptionalText none record.sourceRoot)
      (projectType_is : FieldIs members "projectType" IsOptionalText none record.projectType) :
      DescribesProject (.object members) record

/-- The member describes the project, under its name. -/
def DescribesEntry (member : Option String × Json) (project : String × ProjectRecord) : Prop :=
  member.1 = some project.1 ∧ DescribesProject member.2 project.2

/-- The value is an object of the projects of the workspace. -/
def DescribesProjects (value : Json) (catalog : Catalog) : Prop :=
  ∃ members, value = .object members ∧ List.Forall₂ DescribesEntry members catalog.projects

/-- The value describes a workspace, by the name of its field or by the order. -/
inductive DescribesCatalog : Json → Catalog → Prop
  | empty : DescribesCatalog (.array []) {}
  | inOrder {value catalog} (projects_are : DescribesProjects value catalog) :
      DescribesCatalog (.array [value]) catalog
  | byName {members catalog} (keys : HasTextKeys members)
      (projects_are : FieldIs members "projects" DescribesProjects {} catalog) :
      DescribesCatalog (.object members) catalog

/-- The text is JSON, and describes a workspace. -/
def DescribesWorkspace (text : String) (catalog : Catalog) : Prop :=
  ∃ value, Json.IsTextOf text value ∧ DescribesCatalog value catalog

/-- The entry is the last one of the name. -/
def Catalog.LastEntryIs (catalog : Catalog) (name : String) (record : ProjectRecord) : Prop :=
  ∃ front back, catalog.projects = front ++ (name, record) :: back ∧ ∀ later ∈ back, later.1 ≠ name

/-! ### What is read is what is described -/

theorem textOf?_eq_some_iff {value : Json} {text : String} :
    textOf? value = some text ↔ IsText value text := by
  rw [IsText, textOf?.eq_def]
  split
  next => rw [Json.string.injEq]
  next no_string =>
    constructor
    · nofun
    · intro same
      exact absurd same (no_string _)

theorem optionalText?_eq_some_iff {value : Json} {text : Option String} :
    optionalText? value = some text ↔ IsOptionalText value text := by
  rw [optionalText?.eq_def]
  split
  next =>
    cases text with
    | none => exact ⟨fun _ => rfl, fun _ => rfl⟩
    | some text =>
      constructor
      · nofun
      · nofun
  next value no_null =>
    cases text with
    | none => simpa [IsOptionalText] using no_null
    | some text => simp [IsOptionalText, textOf?_eq_some_iff]

theorem keysAreTexts_iff : keysAreTexts members = true ↔ HasTextKeys members := by
  simp only [keysAreTexts, List.all_eq_true, HasTextKeys, Option.isSome_iff_exists]

theorem member?_eq_some_none_iff :
    member? key members = some none ↔ ∀ member ∈ members, member.1 ≠ some key := by
  have none_kept : (members.filter fun member => member.1 == some key) = [] ↔
      ∀ member ∈ members, member.1 ≠ some key := by
    simp [List.filter_eq_nil_iff]
  rw [← none_kept, member?]
  split
  next empty => simp [empty]
  next only => simp [only]
  next not_empty _ => simpa using not_empty

theorem member?_eq_some_some_iff {value : Json} :
    member? key members = some (some value) ↔
      ∃ front back, members = front ++ (some key, value) :: back ∧
        ∀ member ∈ front ++ back, member.1 ≠ some key := by
  have one_kept : (members.filter fun member => member.1 == some key) = [(some key, value)] ↔
      ∃ front back, members = front ++ (some key, value) :: back ∧
        ∀ member ∈ front ++ back, member.1 ≠ some key := by
    simp [List.filter_eq_cons_iff, List.filter_eq_nil_iff, or_imp, forall_and]
  rw [← one_kept, member?]
  split
  next empty => simp [empty]
  next there value' only =>
    have mem := List.mem_filter.mp (only ▸ List.mem_singleton_self _)
    have there_eq : there = some key := by simpa using mem.2
    simp [only, there_eq]
  next _ not_one => simpa using fun only => (not_one _ _ only).elim

/-- A field is read as the members say. -/
theorem exists_member?_iff {means : Json → α → Prop} {reads : Json → Option α} {default field : α}
    (reads_iff : ∀ value, reads value = some field ↔ means value field) :
    (∃ found, member? key members = some found ∧ (found.map reads).getD (some default) = some field) ↔
      FieldIs members key means default field := by
  constructor
  · rintro ⟨found, there, is_field⟩
    cases found with
    | none => exact .inl ⟨member?_eq_some_none_iff.mp there, (Option.some_inj.mp is_field).symm⟩
    | some value =>
      obtain ⟨front, back, members_eq, once⟩ := member?_eq_some_some_iff.mp there
      exact .inr ⟨front, value, back, members_eq, once, (reads_iff value).mp is_field⟩
  · rintro (⟨absent, rfl⟩ | ⟨front, value, back, members_eq, once, is_field⟩)
    · exact ⟨none, member?_eq_some_none_iff.mpr absent, rfl⟩
    · exact ⟨some value, member?_eq_some_some_iff.mpr ⟨front, back, members_eq, once⟩,
        (reads_iff value).mpr is_field⟩

/-- An object is read as a project field by field. -/
theorem ProjectRecord.ofJson?_object_eq_some_iff {record : ProjectRecord} :
    ProjectRecord.ofJson? (.object members) = some record ↔ HasTextKeys members ∧
      (∃ found, member? "root" members = some found ∧
        (found.map textOf?).getD (some "") = some record.root) ∧
      (∃ found, member? "sourceRoot" members = some found ∧
        (found.map optionalText?).getD (some none) = some record.sourceRoot) ∧
      ∃ found, member? "projectType" members = some found ∧
        (found.map optionalText?).getD (some none) = some record.projectType := by
  simp only [ProjectRecord.ofJson?, Option.bind_eq_bind, Option.bind_eq_some_iff, Option.pure_def,
    Option.some_inj, Option.guard_eq_some', exists_const, keysAreTexts_iff]
  constructor
  · rintro ⟨keys, r, r_there, s, s_there, t, t_there, root, r_is, sourceRoot, s_is, type, t_is, rfl⟩
    exact ⟨keys, ⟨r, r_there, r_is⟩, ⟨s, s_there, s_is⟩, t, t_there, t_is⟩
  · rintro ⟨keys, ⟨r, r_there, r_is⟩, ⟨s, s_there, s_is⟩, t, t_there, t_is⟩
    exact ⟨keys, r, r_there, s, s_there, t, t_there, _, r_is, _, s_is, _, t_is, rfl⟩

theorem ProjectRecord.ofJson?_eq_some_iff {value : Json} {record : ProjectRecord} :
    ProjectRecord.ofJson? value = some record ↔ DescribesProject value record := by
  constructor
  · intro read
    rw [ProjectRecord.ofJson?.eq_def] at read
    split at read
    next root sourceRoot projectType =>
      simp only [Option.bind_eq_bind, Option.bind_eq_some_iff, Option.pure_def, Option.some_inj] at read
      obtain ⟨r, root_is, s, sourceRoot_is, t, projectType_is, rfl⟩ := read
      exact .inOrder (textOf?_eq_some_iff.mp root_is) (optionalText?_eq_some_iff.mp sourceRoot_is)
        (optionalText?_eq_some_iff.mp projectType_is)
    next members =>
      obtain ⟨keys, root_is, sourceRoot_is, projectType_is⟩ := ofJson?_object_eq_some_iff.mp read
      exact .byName keys ((exists_member?_iff fun _ => textOf?_eq_some_iff).mp root_is)
        ((exists_member?_iff fun _ => optionalText?_eq_some_iff).mp sourceRoot_is)
        ((exists_member?_iff fun _ => optionalText?_eq_some_iff).mp projectType_is)
    next => cases read
  · intro describes
    cases describes with
    | inOrder root_is sourceRoot_is projectType_is =>
      simp only [ProjectRecord.ofJson?, textOf?_eq_some_iff.mpr root_is,
        optionalText?_eq_some_iff.mpr sourceRoot_is, optionalText?_eq_some_iff.mpr projectType_is]
      rfl
    | byName keys root_is sourceRoot_is projectType_is =>
      exact ofJson?_object_eq_some_iff.mpr ⟨keys,
        (exists_member?_iff fun _ => textOf?_eq_some_iff).mpr root_is,
        (exists_member?_iff fun _ => optionalText?_eq_some_iff).mpr sourceRoot_is,
        (exists_member?_iff fun _ => optionalText?_eq_some_iff).mpr projectType_is⟩

theorem entriesOf?_eq_some_iff {projects : List (String × ProjectRecord)} :
    entriesOf? members = some projects ↔ List.Forall₂ DescribesEntry members projects := by
  induction members generalizing projects with
  | nil =>
    rw [entriesOf?, Option.some_inj, List.forall₂_nil_left_iff]
    exact eq_comm
  | cons member members ih =>
    obtain ⟨key, value⟩ := member
    simp only [entriesOf?, Option.bind_eq_bind, Option.bind_eq_some_iff, Option.pure_def,
      Option.some_inj, ih, ProjectRecord.ofJson?_eq_some_iff, List.forall₂_cons_left_iff]
    constructor
    · rintro ⟨name, named, record, describes, later, rest, rfl⟩
      exact ⟨(name, record), later, ⟨named, describes⟩, rest, rfl⟩
    · rintro ⟨⟨name, record⟩, later, ⟨named, describes⟩, rest, rfl⟩
      exact ⟨name, named, record, describes, later, rest, rfl⟩

theorem Catalog.projectsOf?_eq_some_iff {value : Json} {catalog : Catalog} :
    Catalog.projectsOf? value = some catalog ↔ DescribesProjects value catalog := by
  rw [Catalog.projectsOf?.eq_def]
  split
  next members =>
    rw [Option.map_eq_some_iff]
    constructor
    · rintro ⟨projects, read, rfl⟩
      exact ⟨members, rfl, entriesOf?_eq_some_iff.mp read⟩
    · rintro ⟨_, same, entries⟩
      cases same
      exact ⟨catalog.projects, entriesOf?_eq_some_iff.mpr entries, rfl⟩
  next no_object =>
    constructor
    · nofun
    · rintro ⟨members, rfl, -⟩
      exact (no_object members rfl).elim

/-- An object is read as a workspace by its one field. -/
theorem Catalog.ofJson?_object_eq_some_iff {catalog : Catalog} :
    Catalog.ofJson? (.object members) = some catalog ↔ HasTextKeys members ∧
      ∃ found, member? "projects" members = some found ∧
        (found.map Catalog.projectsOf?).getD (some {}) = some catalog := by
  simp only [Catalog.ofJson?, Option.bind_eq_bind, Option.bind_eq_some_iff, Option.guard_eq_some',
    exists_const, keysAreTexts_iff]

theorem Catalog.ofJson?_eq_some_iff {value : Json} {catalog : Catalog} :
    Catalog.ofJson? value = some catalog ↔ DescribesCatalog value catalog := by
  constructor
  · intro read
    rw [Catalog.ofJson?.eq_def] at read
    split at read
    next =>
      cases read
      exact .empty
    next => exact .inOrder (Catalog.projectsOf?_eq_some_iff.mp read)
    next members =>
      obtain ⟨keys, projects_are⟩ := ofJson?_object_eq_some_iff.mp read
      exact .byName keys ((exists_member?_iff fun _ => projectsOf?_eq_some_iff).mp projects_are)
    next => cases read
  · intro describes
    cases describes with
    | empty => rfl
    | inOrder projects_are => exact Catalog.projectsOf?_eq_some_iff.mpr projects_are
    | byName keys projects_are =>
      exact ofJson?_object_eq_some_iff.mpr
        ⟨keys, (exists_member?_iff fun _ => projectsOf?_eq_some_iff).mpr projects_are⟩

/-- **The texts that are read as a workspace file** are those that describe a workspace. -/
theorem Catalog.parse?_eq_some_iff {text : String} {catalog : Catalog} :
    Catalog.parse? text = some catalog ↔ DescribesWorkspace text catalog := by
  simp only [Catalog.parse?, Option.bind_eq_some_iff, Json.parse?_eq_some_iff,
    Catalog.ofJson?_eq_some_iff, DescribesWorkspace]

/-! ### The entry that counts -/

theorem Catalog.entry?_eq_some_iff {catalog : Catalog} {name : String} {record : ProjectRecord} :
    catalog.entry? name = some record ↔ catalog.LastEntryIs name record := by
  simp only [Catalog.entry?, Option.map_eq_some_iff, List.find?_eq_some_iff_append, LastEntryIs]
  constructor
  · rintro ⟨⟨name', record⟩, ⟨named, back, front, reversed, none_later⟩, rfl⟩
    obtain rfl : name' = name := by simpa using named
    refine ⟨front.reverse, back.reverse, ?_, fun later mem => ?_⟩
    · rw [← List.reverse_reverse catalog.projects, reversed]
      simp
    · simpa using none_later later (List.mem_reverse.mp mem)
  · rintro ⟨front, back, projects_eq, none_later⟩
    refine ⟨(name, record), ⟨by simp, back.reverse, front.reverse, ?_, fun later mem => ?_⟩, rfl⟩
    · simp [projects_eq]
    · simpa using none_later later (List.mem_reverse.mp mem)

theorem Catalog.entry?_eq_none_iff {catalog : Catalog} {name : String} :
    catalog.entry? name = none ↔ ∀ project ∈ catalog.projects, project.1 ≠ name := by
  simp [Catalog.entry?]

end ModelGrid.Project
