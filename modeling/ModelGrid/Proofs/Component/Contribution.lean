import ModelGrid.Component.Contribution
import ModelGrid.Model.Name
import ModelGrid.Proofs.Model.Reading
import ModelGrid.Proofs.Text.Line

/-!
# Contributions read back

Titles and names are put into the generated lines as they are, and may hold whatever stands around
them there.  Nothing is lost by this: a block tells the properties that it was made of, as far as it
shows anything of them.

A block is read from its front, line by line.  A line of the interface is known from where it ends, since
names have no blanks and titles no line feeds.  The field of a row may itself go over several lines, as
the format of dates may hold anything; its name ends at its first space, and after the name the two kinds
of fields differ in their first character.  Only the line of a column is taken apart from its back end: the
title may hold what follows it, and the name behind the last space may not.

## Main definitions

* `Readable`: what holds of the properties of a source that is read.
* `OnNewLine`: a text is empty or goes on with a new line.

## Main results

* `map_eq_of_block_eq`: lines that are known from any text that goes on with them are known from a block.
* `columnStatement_append_inj`, `rowField_append_inj`, `interfaceField_append_inj`: the three kinds of
  lines.
* `blocks_eq_iff`: when the blocks of two lists of properties agree.
-/

namespace ModelGrid.Component.Contribution

open Model

variable {α β : Type} {p q : Property} {ps qs : List Property} {rest rest' : List Char}

/-! ### Properties that can be read back -/

/-- The name has no blank, and the title no line feed. -/
structure Readable (p : Property) : Prop where
  name : ∀ c ∈ p.name.toList, Text.isBlank c = false
  title : '\n' ∉ p.title.toList

/-- The properties of a source can be read back. -/
theorem readable_of_readSource {source : String} (read : readSource source = .ok ps) :
    ∀ p ∈ ps, Readable p := by
  have no_title : ∀ title, none = some title → TitleAbove [] title := nofun
  have run := forall₂_declaredAt_of_readLines no_title read
  intro p mem
  obtain ⟨i, inside, rfl⟩ := List.getElem_of_mem mem
  have declared := run.get (by rw [run.length_eq]; exact inside) inside
  exact ⟨declared.2.2, declared.1.not_mem_title⟩

theorem Readable.not_mem_name (h : Readable p) {c : Char} (blank : Text.isBlank c = true) :
    c ∉ p.name.toList := by
  intro mem
  rw [h.name c mem] at blank
  cases blank

/-! ### Lines of a block -/

/-- The text is empty or goes on with a new line. -/
def OnNewLine (rest : List Char) : Prop := ∀ c ∈ rest.head?, c = '\n'

theorem onNewLine_nil : OnNewLine [] := by
  simp [OnNewLine]

theorem onNewLine_cons (rest : List Char) : OnNewLine ('\n' :: rest) := by
  simp [OnNewLine]

/-- A line is known from where it ends. -/
theorem line_append_inj {line line' : List Char} (clean : '\n' ∉ line) (clean' : '\n' ∉ line')
    (ends : OnNewLine rest) (ends' : OnNewLine rest') (same : line ++ rest = line' ++ rest') :
    line = line' ∧ rest = rest' := by
  cases rest with
  | nil =>
    cases rest' with
    | nil => exact ⟨by simpa using same, rfl⟩
    | cons c cs =>
      obtain rfl := ends' c rfl
      rw [List.append_nil] at same
      exact absurd (by simp [same]) clean
  | cons c cs =>
    obtain rfl := ends c rfl
    cases rest' with
    | nil =>
      rw [List.append_nil] at same
      exact absurd (by simp [← same]) clean'
    | cons c' cs' =>
      obtain rfl := ends' c' rfl
      obtain ⟨rfl, rfl⟩ := Text.append_cons_inj clean clean' same
      exact ⟨rfl, rfl⟩

/-- The lines, each on a new line behind the indentation, and what is behind them. -/
def block (indent : List Char) (line : α → List Char) (xs : List α) (stop : List Char) : List Char :=
  (xs.flatMap fun x => '\n' :: (indent ++ line x)) ++ stop

theorem block_cons (indent : List Char) (line : α → List Char) (x : α) (xs : List α)
    (stop : List Char) :
    block indent line (x :: xs) stop = '\n' :: (indent ++ (line x ++ block indent line xs stop)) := by
  simp [block]

theorem onNewLine_block {indent : List Char} {line : α → List Char} {xs : List α} {stop : List Char}
    (ends : OnNewLine stop) : OnNewLine (block indent line xs stop) := by
  cases xs with
  | nil => exact ends
  | cons x xs =>
    rw [block_cons]
    exact onNewLine_cons _

theorem toList_indented_append (indent : String) (line : α → String) (xs : List α) (stop : List Char) :
    (indented indent (xs.map line)).toList ++ stop =
      block indent.toList (fun x => (line x).toList) xs stop := by
  simp [indented, block, List.flatMap_map, String.toList_append]

theorem toList_columnBlock (ps : List Property) :
    (columnBlock ps).toList =
      '\n' :: block "\t\t".toList (fun p => (columnStatement p).toList) ps [] := by
  rw [← toList_indented_append, List.append_nil]
  unfold columnBlock
  rw [String.toList_append]
  rfl

theorem toList_rowBlock (formatting : Formatting) (ps : List Property) :
    (rowBlock formatting ps).toList = "\n\treturn \x7b".toList ++
      block "\t\t".toList (fun p => (rowField formatting p).toList) ps ['\n', '\t', '\x7d'] := by
  have closes : "\n\t\x7d".toList = ['\n', '\t', '\x7d'] := by decide
  rw [← toList_indented_append, rowBlock, String.toList_append, String.toList_append,
    List.append_assoc, closes]

theorem toList_interfaceDeclaration (model : String) (ps : List Property) :
    (interfaceDeclaration model ps).toList = "export interface ".toList ++ (model.toList ++ ' ' :: '\x7b' ::
      block "\t".toList (fun p => (interfaceField p).toList) ps ['\n', '\x7d']) := by
  have opens : " \x7b".toList = [' ', '\x7b'] := by decide
  have closes : "\n\x7d".toList = ['\n', '\x7d'] := by decide
  rw [← toList_indented_append]
  unfold interfaceDeclaration
  simp only [String.toList_append, opens, closes, List.append_assoc, List.cons_append, List.nil_append]

/-- **Lines of a block.**  If each line is known from any text that goes on with it on a new line, and
what is behind the block is not indented like a line, then the lines are known from the block. -/
theorem map_eq_of_block_eq {key : α → β} {line : α → List Char} {indent stop : List Char}
    {good : α → Prop}
    (line_inj : ∀ x y, good x → good y → ∀ rest rest', OnNewLine rest → OnNewLine rest' →
      line x ++ rest = line y ++ rest' → key x = key y ∧ rest = rest')
    (ends : OnNewLine stop) (other : ∀ more, stop ≠ '\n' :: (indent ++ more)) {xs ys : List α}
    (good_xs : ∀ x ∈ xs, good x) (good_ys : ∀ y ∈ ys, good y)
    (same : block indent line xs stop = block indent line ys stop) : xs.map key = ys.map key := by
  induction xs generalizing ys with
  | nil =>
    cases ys with
    | nil => rfl
    | cons y ys =>
      rw [block_cons] at same
      exact absurd same (other _)
  | cons x xs ih =>
    cases ys with
    | nil =>
      rw [block_cons] at same
      exact absurd same.symm (other _)
    | cons y ys =>
      rw [block_cons, block_cons] at same
      obtain ⟨same_key, later⟩ := line_inj x y (good_xs x (by simp)) (good_ys y (by simp)) _ _
        (onNewLine_block ends) (onNewLine_block ends)
        (List.append_cancel_left (List.cons.inj same).2)
      have same_keys := ih (fun x mem => good_xs x (List.mem_cons_of_mem _ mem))
        (fun y mem => good_ys y (List.mem_cons_of_mem _ mem)) later
      rw [List.map_cons, List.map_cons, same_key, same_keys]

/-! ### The three kinds of lines -/

/-- A name is known from what its colon and a space go on with. -/
theorem name_append_inj (hp : Readable p) (hq : Readable q)
    (same : p.name.toList ++ ':' :: ' ' :: rest = q.name.toList ++ ':' :: ' ' :: rest') :
    p.name = q.name ∧ rest = rest' := by
  have no_space {p : Property} (hp : Readable p) : ' ' ∉ p.name.toList ++ [':'] := by
    simp [hp.not_mem_name (c := ' ') (by decide)]
  have split : (p.name.toList ++ [':']) ++ ' ' :: rest = (q.name.toList ++ [':']) ++ ' ' :: rest' := by
    simpa using same
  obtain ⟨same_name, same_rest⟩ := Text.append_cons_inj (no_space hp) (no_space hq) split
  exact ⟨String.toList_inj.mp (List.append_cancel_right same_name), same_rest⟩

/-- What the field of a row goes on with behind the value that it is made of. -/
def behindValue (formatting : Formatting) (p : Property) : List Char :=
  match p.dataType with
  | .dateTime => (" ? formatDate(dto." ++ p.name ++ ", '" ++ formatting.dateFormat ++ "', '" ++
      formatting.locale ++ "') : '',").toList
  | _ => [',']

theorem behindValue_eq_of_date (formatting : Formatting) (same_name : p.name = q.name)
    (same_date : (p.dataType == .dateTime) = (q.dataType == .dateTime)) :
    behindValue formatting p = behindValue formatting q := by
  rw [behindValue, behindValue, same_name]
  cases date : p.dataType <;> cases date' : q.dataType <;> simp [date, date'] at same_date ⊢

theorem toList_rowField_append (formatting : Formatting) (p : Property) (rest : List Char) :
    (rowField formatting p).toList ++ rest = p.name.toList ++ ':' :: ' ' ::
      ("dto.".toList ++ (p.name.toList ++ (behindValue formatting p ++ rest))) := by
  rw [rowField, behindValue]
  cases p.dataType <;> simp

/-- **The field of a row** tells the name, and whether the property is a date. -/
theorem rowField_append_inj (formatting : Formatting) (hp : Readable p) (hq : Readable q)
    (same : (rowField formatting p).toList ++ rest = (rowField formatting q).toList ++ rest') :
    (p.name, p.dataType == .dateTime) = (q.name, q.dataType == .dateTime) ∧ rest = rest' := by
  rw [toList_rowField_append, toList_rowField_append] at same
  obtain ⟨same_name, later⟩ := name_append_inj hp hq same
  rw [same_name] at later ⊢
  have behind := List.append_cancel_left (List.append_cancel_left later)
  -- behind the value a date goes on with a space, all else with a comma
  by_cases date : p.dataType = .dateTime
  · by_cases date' : q.dataType = .dateTime
    · simp only [behindValue, date, date', same_name] at behind
      exact ⟨by rw [date, date'], List.append_cancel_left behind⟩
    · simp [behindValue, date] at behind
  · by_cases date' : q.dataType = .dateTime
    · simp [behindValue, date'] at behind
    · simp only [behindValue] at behind
      exact ⟨by simp [date, date'], List.append_cancel_left behind⟩

theorem not_mem_wireName (dataType : DataType) : '\n' ∉ dataType.wireName.toList := by
  cases dataType <;> decide

/-- **The field of an interface** tells the name and the type on the wire. -/
theorem interfaceField_append_inj (hp : Readable p) (hq : Readable q) (ends : OnNewLine rest)
    (ends' : OnNewLine rest')
    (same : (interfaceField p).toList ++ rest = (interfaceField q).toList ++ rest') :
    (p.name, p.dataType.wireName) = (q.name, q.dataType.wireName) ∧ rest = rest' := by
  have split (p : Property) : (interfaceField p).toList =
      p.name.toList ++ ':' :: ' ' :: p.dataType.wireName.toList := by
    simp [interfaceField]
  have clean {p : Property} (hp : Readable p) : '\n' ∉ (interfaceField p).toList := by
    rw [split]
    simp [hp.not_mem_name (c := '\n') (by decide), not_mem_wireName]
  obtain ⟨same_line, same_rest⟩ := line_append_inj (clean hp) (clean hq) ends ends' same
  rw [split, split] at same_line
  obtain ⟨same_name, same_type⟩ := name_append_inj hp hq same_line
  exact ⟨by rw [same_name, String.toList_inj.mp same_type], same_rest⟩

/-- **The statement of a column** tells the title and the name. -/
theorem columnStatement_append_inj (hp : Readable p) (hq : Readable q) (ends : OnNewLine rest)
    (ends' : OnNewLine rest')
    (same : (columnStatement p).toList ++ rest = (columnStatement q).toList ++ rest') :
    (p.title, p.name) = (q.title, q.name) ∧ rest = rest' := by
  have clean {p : Property} (hp : Readable p) : '\n' ∉ (columnStatement p).toList := by
    have no_feed := hp.not_mem_name (c := '\n') (by decide)
    unfold columnStatement
    simp only [String.toList_append, List.mem_append, not_or]
    refine ⟨⟨⟨⟨⟨⟨?_, hp.title⟩, ?_⟩, no_feed⟩, ?_⟩, no_feed⟩, ?_⟩ <;> decide
  obtain ⟨same_line, same_rest⟩ := line_append_inj (clean hp) (clean hq) ends ends' same
  refine ⟨?_, same_rest⟩
  -- the line is cut at its last space, which stands in front of the name that is written last
  have cut (p : Property) : (columnStatement p).toList =
      "stringIndexerHelper.addColumnItem(new ColumnItemStrict('".toList ++ ((p.title.toList ++
        ("', '".toList ++ (p.name.toList ++ "', null,".toList))) ++ ' ' :: '\'' :: p.name.toList) ++
          "', null, null));".toList := by
    have middle : "', null, '".toList = "', null,".toList ++ [' ', '\''] := by decide
    unfold columnStatement
    simp only [String.toList_append, middle, List.append_assoc, List.cons_append, List.nil_append]
  rw [cut, cut] at same_line
  have between := List.append_cancel_left (List.append_cancel_right same_line)
  have no_space {p : Property} (hp : Readable p) : ' ' ∉ '\'' :: p.name.toList := by
    simp [hp.not_mem_name (c := ' ') (by decide)]
  obtain ⟨front, back⟩ := Text.append_cons_inj_right (no_space hp) (no_space hq) between
  have same_name : p.name = q.name := String.toList_inj.mp (List.cons.inj back).2
  rw [same_name] at front ⊢
  rw [String.toList_inj.mp (List.append_cancel_right front)]

/-! ### The three blocks -/

/-- Lines are made of what is shown of properties. -/
theorem map_eq_map_of_key {key : Property → β} (line : Property → α)
    (made_of : ∀ p q, key p = key q → line p = line q) (same : ps.map key = qs.map key) :
    ps.map line = qs.map line := by
  induction ps generalizing qs with
  | nil =>
    obtain rfl := List.map_eq_nil_iff.mp same.symm
    rfl
  | cons p ps ih =>
    cases qs with
    | nil => cases same
    | cons q qs =>
      obtain ⟨first, later⟩ := List.cons.inj same
      rw [List.map_cons, List.map_cons, made_of p q first, ih later]

theorem columnBlock_eq_iff (hp : ∀ p ∈ ps, Readable p) (hq : ∀ q ∈ qs, Readable q) :
    columnBlock ps = columnBlock qs ↔
      ps.map (fun p => (p.title, p.name)) = qs.map fun q => (q.title, q.name) := by
  constructor
  · intro same
    have texts := congrArg String.toList same
    rw [toList_columnBlock, toList_columnBlock] at texts
    refine map_eq_of_block_eq (fun p q hp hq rest rest' ends ends' same => ?_) onNewLine_nil (by simp)
      hp hq (List.cons.inj texts).2
    exact columnStatement_append_inj hp hq ends ends' same
  · intro same
    unfold columnBlock
    rw [map_eq_map_of_key columnStatement (fun p q same_key => ?_) same]
    obtain ⟨same_title, same_name⟩ := Prod.mk.inj same_key
    unfold columnStatement
    rw [same_title, same_name]

theorem rowBlock_eq_iff (hp : ∀ p ∈ ps, Readable p) (hq : ∀ q ∈ qs, Readable q)
    (formatting : Formatting) :
    rowBlock formatting ps = rowBlock formatting qs ↔
      ps.map (fun p => (p.name, p.dataType == .dateTime)) =
        qs.map fun q => (q.name, q.dataType == .dateTime) := by
  constructor
  · intro same
    have texts := congrArg String.toList same
    rw [toList_rowBlock, toList_rowBlock] at texts
    refine map_eq_of_block_eq (fun p q hp hq rest rest' _ _ same => ?_) (onNewLine_cons _) (by simp)
      hp hq (List.append_cancel_left texts)
    exact rowField_append_inj formatting hp hq same
  · intro same
    rw [rowBlock, map_eq_map_of_key (rowField formatting) (fun p q same_key => ?_) same, rowBlock]
    obtain ⟨same_name, same_date⟩ := Prod.mk.inj same_key
    have field (p : Property) : rowField formatting p =
        String.ofList (p.name.toList ++ ':' :: ' ' ::
          ("dto.".toList ++ (p.name.toList ++ behindValue formatting p))) := by
      have whole := toList_rowField_append formatting p []
      rw [List.append_nil, List.append_nil] at whole
      rw [← whole, String.ofList_toList]
    rw [field, field, behindValue_eq_of_date formatting same_name same_date, same_name]

theorem interfaceDeclaration_eq_iff (hp : ∀ p ∈ ps, Readable p) (hq : ∀ q ∈ qs, Readable q)
    {model model' : String} (named : model.toList.all isNameChar = true)
    (named' : model'.toList.all isNameChar = true) :
    interfaceDeclaration model ps = interfaceDeclaration model' qs ↔
      model = model' ∧ ps.map (fun p => (p.name, p.dataType.wireName)) =
        qs.map fun q => (q.name, q.dataType.wireName) := by
  constructor
  · intro same
    have texts := congrArg String.toList same
    rw [toList_interfaceDeclaration, toList_interfaceDeclaration] at texts
    have no_space {model : String} (named : model.toList.all isNameChar = true) : ' ' ∉ model.toList := by
      intro mem
      have chosen := List.all_eq_true.mp named _ mem
      revert chosen
      decide
    obtain ⟨same_model, later⟩ :=
      Text.append_cons_inj (no_space named) (no_space named') (List.append_cancel_left texts)
    refine ⟨String.toList_inj.mp same_model, ?_⟩
    refine map_eq_of_block_eq (fun p q hp hq rest rest' ends ends' same => ?_) (onNewLine_cons _)
      (by simp) hp hq (List.cons.inj later).2
    exact interfaceField_append_inj hp hq ends ends' same
  · rintro ⟨rfl, same⟩
    unfold interfaceDeclaration
    rw [map_eq_map_of_key interfaceField (fun p q same_key => ?_) same]
    obtain ⟨same_name, same_type⟩ := Prod.mk.inj same_key
    rw [interfaceField, same_name, same_type, interfaceField]

/-- **What blocks tell.**  Columns agree if and only if the titles and names do, rows if and only if the
names do and the same properties are dates, and interfaces if and only if the model's name, the names
and the types on the wire do; each time in the same order, and as many. -/
theorem blocks_eq_iff (hp : ∀ p ∈ ps, Readable p) (hq : ∀ q ∈ qs, Readable q)
    (formatting : Formatting) :
    (columnBlock ps = columnBlock qs ↔
      ps.map (fun p => (p.title, p.name)) = qs.map fun q => (q.title, q.name)) ∧
    (rowBlock formatting ps = rowBlock formatting qs ↔
      ps.map (fun p => (p.name, p.dataType == .dateTime)) =
        qs.map fun q => (q.name, q.dataType == .dateTime)) ∧
    ∀ model model' : String, model.toList.all isNameChar = true → model'.toList.all isNameChar = true →
      (interfaceDeclaration model ps = interfaceDeclaration model' qs ↔
        model = model' ∧ ps.map (fun p => (p.name, p.dataType.wireName)) =
          qs.map fun q => (q.name, q.dataType.wireName)) :=
  ⟨columnBlock_eq_iff hp hq, rowBlock_eq_iff hp hq formatting,
    fun _ _ named named' => interfaceDeclaration_eq_iff hp hq named named'⟩

/-- Properties that were read, with a title that looks like a title and a name, a name with a colon, and
a format of dates that looks like another field. -/
theorem blocks_eq_iff_quoted :
    let ps : List Property := [⟨"b:", .dateTime, "a', 'b:"⟩]
    let qs : List Property := [⟨"b:", .string, "a"⟩]
    let formatting : Formatting := ⟨"',\n\t\tb: dto.b,", ""⟩
    (∀ p ∈ ps, Readable p) ∧ (∀ q ∈ qs, Readable q) ∧
      columnBlock ps ≠ columnBlock qs ∧ rowBlock formatting ps ≠ rowBlock formatting qs ∧
      interfaceDeclaration "Dto" ps = interfaceDeclaration "Dto" qs := by
  intro ps qs formatting
  have read : readSource "[Column(\"a', 'b:\")]\npublic DateTime b:" = .ok ps := by decide +kernel
  have read' : readSource "[Column(\"a\")]\npublic string b:" = .ok qs := by decide +kernel
  have hp := readable_of_readSource read
  have hq := readable_of_readSource read'
  obtain ⟨columns, rows, interfaces⟩ := blocks_eq_iff hp hq formatting
  exact ⟨hp, hq, mt columns.mp (by decide), mt rows.mp (by decide),
    (interfaces "Dto" "Dto" (by decide) (by decide)).mpr ⟨rfl, by decide⟩⟩

end ModelGrid.Component.Contribution
