import ModelGrid.Component.Generate
import ModelGrid.Proofs.Component.Rendering
import ModelGrid.Proofs.Naming.Respelling
import ModelGrid.Proofs.Store.Workspace

/-!
# Two spellings of a component's name

All that a run makes of the name of a component are its dashed and its capitalised spelling.  So two
names that agree in both are as good as each other (`SameSpellings`): a run comes to the same disk for
either, and its report differs only in the name itself.

The name is put for a marker of its own as well.  No template of a component has that marker, and it
is the first one that is looked for, when nothing has been put yet that could look like it
(`replaceAll_template_of_not_mem`); so it makes no difference what the name is.

A name of ASCII agrees in both spellings with the name that is spelled with dashes already.

## Main definitions

* `SameSpellings`: two names with the same spellings.
* `Blueprint.named`, `Request.named`, `Report.named`: the same for a component of another name.
* `Skeleton.rendered`: the names and texts of the files of a component.

## Main results

* `generate_named`: a run comes to the same for two names with the same spellings.
* `generate_kebabCase`: a component may be asked for by its dashed name.
-/

namespace ModelGrid.Component

open Store Store.Action Text

variable {name other : String} {p : Values} {pieces : List Piece} {b : Blueprint}

/-- The two names have the same spellings. -/
structure SameSpellings (name other : String) : Prop where
  kebab : kebabCase other = kebabCase name
  pascal : pascalCase other = pascalCase name

theorem SameSpellings.refl (name : String) : SameSpellings name name := ⟨rfl, rfl⟩

theorem sameSpellings_kebabCase (ascii : ∀ c ∈ name.toList, IsAscii c) :
    SameSpellings name (kebabCase name) :=
  ⟨Naming.kebabCase_kebabCase ascii, Naming.pascalCase_kebabCase ascii⟩

/-! ### Rendering -/

/-- A marker that the template does not have is not found in it. -/
theorem replaceAll_template_of_not_mem {m : Marker} {value : List Char}
    (separated : Piece.Separated pieces) (unused : .marker m ∉ pieces) :
    replaceAll m.spelling.toList value (Piece.template pieces).toList =
      (Piece.template pieces).toList := by
  have spelled (pieces : List Piece) :
      (Piece.template pieces).toList = pieces.flatMap fun piece => piece.spelling.toList := by
    rw [Piece.template, toList_join, List.flatMap_map]
  rw [spelled, replaceAll]
  induction pieces with
  | nil => rfl
  | cons piece rest ih =>
    have plain := separated.plain_of_mem_dropLast
    have ih := ih separated.tail (List.not_mem_of_not_mem_cons unused)
    rw [List.flatMap_cons]
    cases piece with
    | literal text =>
      rw [m.toList_spelling] at ih ⊢
      cases rest with
      | nil =>
        -- nothing is behind the last piece
        rw [List.flatMap_nil, List.append_nil]
        exact replaceFrom_eq_self (separated.literals _ List.mem_cons_self).1
      | cons next rest =>
        have stretch : OpensNone text.toList := plain (.literal text) (by simp)
        exact (replaceFrom_append_of_opensNone stretch).trans (congrArg (text.toList ++ ·) ih)
    | marker found =>
      have ne : m ≠ found := by
        rintro rfl
        exact unused List.mem_cons_self
      exact (replaceFrom_other_append ne).trans (congrArg (found.spelling.toList ++ ·) ih)

/-- The value for the name is not put where the template does not have its marker. -/
theorem render_template_of_not_mem (separated : Piece.Separated pieces)
    (unused : .marker .name ∉ pieces) :
    { p with name := other }.render (Piece.template pieces) = p.render (Piece.template pieces) := by
  have unchanged (p : Values) : p.renderIn Marker.all (Piece.template pieces).toList =
      p.renderIn Marker.all.tail (Piece.template pieces).toList := by
    rw [Marker.all, Values.renderIn, List.foldl_cons, replaceAll_template_of_not_mem separated unused]
    rfl
  rw [Values.render, Values.render, unchanged, unchanged]
  rfl

namespace Skeleton

/-- The files of a component, each by its name in the folder, with the text that it is rendered to. -/
def rendered (p : Values) : List (String × String) :=
  (files p).map fun file => (file.1, p.render (Piece.template file.2))

/-- No template of a component has a marker for the name. -/
theorem marker_name_not_mem {file : String × List Piece} (mem : file ∈ files p) :
    .marker .name ∉ file.2 := by
  have unused : ∀ pieces ∈ [componentClass, componentMarkup, dataService, constants],
      .marker .name ∉ pieces := by
    decide
  have listed : file.2 ∈ (files p).map Prod.snd := List.mem_map_of_mem mem
  exact unused file.2 listed

theorem render_unnamed {file : String × List Piece} (mem : file ∈ files p) :
    { p with name := other }.render (Piece.template file.2) = p.render (Piece.template file.2) :=
  render_template_of_not_mem (separated_of_mem_files p mem) (marker_name_not_mem mem)

theorem rendered_unnamed (p : Values) (other : String) :
    rendered { p with name := other } = rendered p :=
  List.map_congr_left fun _ mem => congrArg (Prod.mk _) (render_unnamed mem)

/-- What is written is what is rendered. -/
theorem writeAll_eq (w : Workspace) (folder : String) (p : Values) {p' : Values}
    {listed : List (String × List Piece)}
    (same : ∀ file ∈ listed, p'.render (Piece.template file.2) = p.render (Piece.template file.2)) :
    writeAll w folder p' listed = writeAll w folder p listed := by
  induction listed with
  | nil => rfl
  | cons file rest ih =>
    obtain ⟨first, others⟩ := List.forall_mem_cons.mp same
    simp only [writeAll, first, ih others]

theorem write_unnamed (w : Workspace) (folder : String) (p : Values) (other : String) :
    write w folder { p with name := other } = write w folder p :=
  writeAll_eq w folder p fun _ mem => render_unnamed mem

end Skeleton

/-! ### Blueprints -/

/-- The blueprint for a component of the name. -/
def Blueprint.named (b : Blueprint) (name : String) : Blueprint := { b with componentName := name }

section SameSpellings

variable (same : SameSpellings name other)
include same

theorem SameSpellings.dashedName (b : Blueprint) :
    (b.named other).dashedName = (b.named name).dashedName :=
  same.kebab

theorem SameSpellings.className (b : Blueprint) :
    (b.named other).className = (b.named name).className :=
  congrArg (· ++ "Component") same.pascal

theorem SameSpellings.serviceFile (b : Blueprint) :
    (b.named other).serviceFile = (b.named name).serviceFile := by
  rw [Blueprint.serviceFile, same.dashedName]
  rfl

theorem SameSpellings.constantsFile (b : Blueprint) :
    (b.named other).constantsFile = (b.named name).constantsFile := by
  rw [Blueprint.constantsFile, same.dashedName]
  rfl

theorem SameSpellings.componentStem (b : Blueprint) :
    (b.named other).componentStem = (b.named name).componentStem := by
  rw [Blueprint.componentStem, same.dashedName]
  rfl

theorem SameSpellings.importPath (b : Blueprint) :
    (b.named other).importPath = (b.named name).importPath := by
  rw [Blueprint.importPath, same.componentStem]
  rfl

/-- Of the values, only the name itself may differ. -/
theorem SameSpellings.values (b : Blueprint) :
    (b.named other).values = { (b.named name).values with name := other } := by
  simp only [Blueprint.values, Values.ofNames, Blueprint.named, same.kebab, same.pascal]

theorem SameSpellings.rendered (b : Blueprint) :
    Skeleton.rendered (b.named other).values = Skeleton.rendered (b.named name).values := by
  rw [same.values, Skeleton.rendered_unnamed]

/-! ### Runs -/

theorem SameSpellings.write (w : Workspace) (b : Blueprint) :
    Skeleton.write w (b.named other).targetFolder (b.named other).values =
      Skeleton.write w (b.named name).targetFolder (b.named name).values := by
  rw [same.values, Skeleton.write_unnamed]
  rfl

theorem SameSpellings.assemble (w : Workspace) (b : Blueprint) (formatting : Formatting)
    (properties : List Model.Property) :
    Component.assemble w (b.named other) formatting properties =
      Component.assemble w (b.named name) formatting properties := by
  have columns : addColumns w (b.named other) properties = addColumns w (b.named name) properties := by
    rw [addColumns, same.serviceFile, addColumns]
  have row : addRow w (b.named other) formatting properties =
      addRow w (b.named name) formatting properties := by
    rw [addRow, same.constantsFile, addRow]
  have registration : register w (b.named other) = register w (b.named name) := by
    unfold register
    rw [same.className, same.importPath]
    rfl
  rw [Component.assemble, columns, row, registration, Component.assemble]
  rfl

end SameSpellings

/-- The request for a component of the name. -/
def Request.named (request : Request) (name : String) : Request := { request with name }

/-- The report on a component of the name. -/
def Report.named (report : Report) (name : String) : Report :=
  { report with blueprint := report.blueprint.named name }

/-- The name is kept in the blueprint; else only its dashed spelling is settled on. -/
theorem settle_named (same : SameSpellings name other) (w : Workspace) (settings : Settings)
    (request : Request) :
    settle w settings (request.named other) =
      (fun b => b.named other) <$> settle w settings (request.named name) := by
  unfold settle Request.named
  dsimp only
  split
  next modelName _ =>
    simp only [map_bind]
    refine bind_congr fun project => bind_congr fun found => ?_
    split
    next moduleFile => 
      rw [same.kebab]
      rfl
    next => rfl
  next => rfl

/-- What a run does behind the blueprint. -/
def carryOut (w : Workspace) (settings : Settings) (modelFile : String) (b : Blueprint) :
    Action Report := do
  let properties ← readModel modelFile
  let files ← Skeleton.write w b.targetFolder b.values
  assemble w b settings.formatting properties
  return { blueprint := b, properties, files }

/-- **A run comes to the same** for two names with the same spellings, but for the name that it
reports. -/
theorem generate_named (same : SameSpellings name other) (w : Workspace) (settings : Settings)
    (request : Request) :
    generate w settings (request.named other) =
      (fun report => report.named other) <$> generate w settings (request.named name) := by
  -- the run for the name itself, too, puts it into what is settled for it
  have run {spelling : String} (same : SameSpellings name spelling) :
      generate w settings (request.named spelling) =
        settle w settings (request.named name) >>= fun b =>
          carryOut w settings request.modelFile (b.named spelling) := by
    show settle w settings (request.named spelling) >>= carryOut w settings request.modelFile = _
    rw [settle_named same, bind_map_left]
  rw [run same, run (.refl name), map_bind]
  refine bind_congr fun b => ?_
  simp only [carryOut, same.write, same.assemble, map_bind]
  rfl

/-- **A component may be asked for by its dashed name.**  The dashed spelling of a name of ASCII is
spelled with dashes as it is, and capitalised as the name itself.  So a blueprint for either has the
same names and paths and the same rendered files, whatever the model, and a run for either comes to the
same disk, with the same fault or the same report, up to the name of the component. -/
theorem generate_kebabCase (ascii : ∀ c ∈ name.toList, IsAscii c) :
    (kebabCase (kebabCase name) = kebabCase name ∧ pascalCase (kebabCase name) = pascalCase name) ∧
    (∀ b : Blueprint,
      let given := b.named name
      let dashed := b.named (kebabCase name)
      dashed.dashedName = given.dashedName ∧ dashed.className = given.className ∧
        dashed.serviceFile = given.serviceFile ∧ dashed.constantsFile = given.constantsFile ∧
        dashed.componentStem = given.componentStem ∧ dashed.interfaceFile = given.interfaceFile ∧
        dashed.importPath = given.importPath ∧
        Skeleton.rendered dashed.values = Skeleton.rendered given.values) ∧
    ∀ (w : Workspace) (settings : Settings) (request : Request) (d : Disk),
      let given := (generate w settings (request.named name)).on d
      let dashed := (generate w settings (request.named (kebabCase name))).on d
      dashed.2 = given.2 ∧
        dashed.1 = given.1.map fun report => report.named (kebabCase name) := by
  have same := sameSpellings_kebabCase ascii
  refine ⟨⟨same.kebab, same.pascal⟩, fun b => ?_, fun w settings request d => ?_⟩
  · exact ⟨same.dashedName b, same.className b, same.serviceFile b, same.constantsFile b,
      same.componentStem b, rfl, same.importPath b, same.rendered b⟩
  · dsimp only
    rw [generate_named same, on_map]
    exact ⟨rfl, rfl⟩

/-- Acronyms, digits and separators of all kinds, and a model of any name. -/
theorem generate_kebabCase_acronym :
    let name := "HTTPServer v2_x"
    let b : Blueprint := ⟨"UserDto", name, "src/app", "src/app/app.module.ts"⟩
    (∀ c ∈ name.toList, IsAscii c) ∧
      kebabCase name = "http-server-v-2-x" ∧
      kebabCase "http-server-v-2-x" = "http-server-v-2-x" ∧
      pascalCase "http-server-v-2-x" = pascalCase name ∧
      (b.named "http-server-v-2-x").importPath = b.importPath ∧
      Skeleton.rendered (b.named "http-server-v-2-x").values = Skeleton.rendered b.values := by
  intro name b
  have ascii : ∀ c ∈ name.toList, IsAscii c := List.all_iff_forall_prop.mp (by decide +kernel)
  have dashed : kebabCase name = "http-server-v-2-x" := by decide +kernel
  obtain ⟨⟨kebab, pascal⟩, blueprints, -⟩ := generate_kebabCase ascii
  obtain ⟨-, -, -, -, -, -, importPath, rendered⟩ := blueprints b
  rw [dashed] at kebab pascal importPath rendered
  exact ⟨ascii, dashed, kebab, pascal, importPath, rendered⟩

end ModelGrid.Component
