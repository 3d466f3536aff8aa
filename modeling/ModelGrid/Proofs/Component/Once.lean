import ModelGrid.Proofs.Component.Register
import Mathlib.Data.List.Count

/-!
# Imported once

A registration looks at the first import from the path of a class only.  If this one has names in
braces and the class is not among them, the class is added to it, whatever later imports from the same
path have (`count_namesFrom_of_second`).

Where the first import tells whether the class is imported (`FirstTells`), nothing is added for a class
that is, and no class comes to be imported twice.

## Main definitions

* `namesFrom`: the names in braces that a file takes from a path.
* `FirstTells`: the first import from a path has the symbol if any of them has.

## Main results

* `count_namesFrom_of_plan`: how often a class is imported after a plan.
-/

namespace ModelGrid

open Syntax Stretch Edit Lexeme

namespace Syntax

variable {symbol path : List Char} {l : ImportLine} {list : NameList}

/-! ### The names of lines -/

/-- The names in braces of a line, in the file that they come from. -/
def ImportLine.names (l : ImportLine) : List (List Char) :=
  l.subject.list?.elim [] NameList.names

/-- The names in braces that lines take from a path. -/
def ImportLine.namesFrom (path : List Char) (lines : List ImportLine) : List (List Char) :=
  (lines.filter fun l => l.path == path).flatMap names

theorem NameList.names_withName (list : NameList) (word : IsWord symbol) :
    (list.withName word).names = list.names ++ [symbol] := by
  show (Specifier.extend word list.specifiers).map Specifier.name =
    list.specifiers.map Specifier.name ++ [symbol]
  rcases List.eq_nil_or_concat' list.specifiers with empty | ⟨front, last, eq⟩
  · rw [empty]
    rfl
  · rw [eq, Specifier.extend_concat, List.map_append, List.map_append, List.append_assoc]
    rfl

theorem Subject.list?_withName {s : Subject} (named : s.list? = some list) (word : IsWord symbol) :
    (s.withName word).list? = some (list.withName word) := by
  rcases s with _ | clause | ⟨_, clause⟩
  · cases named
  all_goals
    cases clause with
    | names =>
      cases named
      rfl
    | _ => cases named

theorem ImportLine.names_withName (named : l.subject.list? = some list) (word : IsWord symbol) :
    (l.withName word).names = l.names ++ [symbol] := by
  have more : (l.withName word).subject.list? = some (list.withName word) :=
    Subject.list?_withName named word
  rw [names, names, more, named]
  exact list.names_withName word

theorem ImportLine.namesFrom_of_forall_ne {lines : List ImportLine}
    (others : ∀ l ∈ lines, l.path ≠ path) : namesFrom path lines = [] := by
  rw [namesFrom, List.filter_eq_nil_iff.mpr fun l mem => by simpa using others l mem]
  rfl

/-- The first line from the path comes first. -/
theorem ImportLine.namesFrom_append_cons {init rest : List ImportLine}
    (others : ∀ k ∈ init, k.path ≠ path) (from_path : l.path = path) :
    namesFrom path (init ++ l :: rest) = l.names ++ namesFrom path rest := by
  have init_names : (init.filter fun l => l.path == path) = [] :=
    List.filter_eq_nil_iff.mpr fun l mem => by simpa using others l mem
  rw [namesFrom, List.filter_append, init_names, List.nil_append,
    List.filter_cons_of_pos (by simpa using from_path), List.flatMap_cons]
  rfl

theorem ImportLine.namesFrom_concat_ofName {init : List ImportLine}
    (others : ∀ k ∈ init, k.path ≠ path) (word : IsWord symbol) (plain : IsPlainPath path)
    (front afterPath : Blank) :
    namesFrom path (init ++ [.ofName word plain front afterPath]) = [symbol] :=
  namesFrom_append_cons (l := .ofName word plain front afterPath) others rfl

end Syntax

namespace AngularModule.Registration

variable {file : Document} {symbol path : List Char}

/-! ### The names of imports -/

/-- The names in braces of an import, in the file that they come from. -/
def namesIn (file : Document) (found : Import) : List (Option (List Char)) :=
  (found.named.elim [] Place.constructs).map fun specifier =>
    (specifier.childOf? .name).map file.charsOf

/-- The names in braces that a file takes from a path. -/
def namesFrom (file : Document) (path : List Char) : List (Option (List Char)) :=
  ((imports file).filter fun found => found.path == path).flatMap (namesIn file)

/-- If the symbol is imported from the path, then by the first import from there, or this one has no
braces. -/
def FirstTells (file : Document) (symbol path : List Char) : Prop :=
  ∀ found, (imports file).find? (fun found => found.path == path) = some found →
    found.named.isSome → some symbol ∈ namesFrom file path → some symbol ∈ namesIn file found

theorem importsName_iff {group : Place} :
    importsName file group symbol = true ↔
      some symbol ∈ group.constructs.map fun specifier =>
        (specifier.childOf? .name).map file.charsOf := by
  simp [importsName]

/-- Nothing is added for a symbol that is imported, if the first import from the path tells so. -/
theorem importAddition?_eq_none (tells : FirstTells file symbol path)
    (there : some symbol ∈ namesFrom file path) : importAddition? file symbol path = none := by
  obtain ⟨found, mem, -⟩ := List.mem_flatMap.mp there
  obtain ⟨found_mem, from_path⟩ := List.mem_filter.mp mem
  rw [importAddition?]
  cases first : (imports file).find? fun found => found.path == path with
  | none => exact absurd from_path (List.find?_eq_none.mp first found found_mem)
  | some existing =>
    cases named : existing.named with
    | none => simp [named]
    | some group =>
      have known := tells existing first (by rw [named]; rfl) there
      rw [namesIn, named] at known
      simp [named, newSpecifier?, importsName_iff.mpr known]

theorem flatMap_filter_forall₂ {α β γ : Type} {r : α → β → Prop} {as : List α} {bs : List β}
    {p : α → Bool} {q : β → Bool} {f : α → List γ} {g : β → List γ} (all : List.Forall₂ r as bs)
    (same : ∀ a, ∀ b ∈ bs, r a b → p a = q b ∧ f a = g b) :
    (as.filter p).flatMap f = (bs.filter q).flatMap g := by
  induction all with
  | nil => rfl
  | @cons a b as bs head _ ih =>
    obtain ⟨same_p, same_f⟩ := same a b List.mem_cons_self head
    have rest := ih fun a b mem => same a b (List.mem_cons_of_mem _ mem)
    rw [List.filter_cons, List.filter_cons, same_p]
    split
    · rw [List.flatMap_cons, List.flatMap_cons, same_f, rest]
    · exact rest

section Lines

variable {text : String} {lines : List ImportLine} {behind : List Char}

/-- The names of an import are those of its line. -/
theorem namesIn_eq {found : Import} {position : Nat} {l : ImportLine}
    (is : IsImportOf found position l) (stand : StandAt l.stretches position file.text) :
    namesIn file found = l.names.map some := by
  have named_is := is.named
  rw [namesIn, ImportLine.names]
  cases named : found.named with
  | none =>
    rw [named] at named_is
    rw [Option.map_eq_none_iff.mp named_is.symm]
    rfl
  | some group =>
    rw [named] at named_is
    obtain ⟨list, is_list, group_is⟩ := Option.map_eq_some_iff.mp named_is.symm
    rw [is_list]
    exact map_constructs_group group_is.symm (ImportLine.standAt_list is_list stand)

/-- The names in braces that are taken from a path are those of the lines, if the word `import` is not
behind them. -/
theorem namesFrom_of_lines (eq : text.toList = Stretch.text (ImportLine.layout lines) ++ behind)
    (lacks : LacksImport behind) (path : List Char) :
    namesFrom (Document.parse text) path = (ImportLine.namesFrom path lines).map some := by
  have found := imports_of_lines eq (length_imports_of_lines eq lacks)
  have placed : ImportLine.namesFrom path lines =
      ((ImportLine.placed 0 lines).filter fun line => line.2.path == path).flatMap
        fun line => line.2.names := by
    conv_lhs => rw [← ImportLine.map_placed 0 lines]
    rw [ImportLine.namesFrom, List.filter_map, List.flatMap_map]
    rfl
  calc namesFrom (Document.parse text) path
      = ((ImportLine.placed 0 lines).filter fun line => line.2.path == path).flatMap
          fun line => line.2.names.map some := by
        refine flatMap_filter_forall₂ found fun found line mem is => ⟨by rw [is.path], ?_⟩
        refine namesIn_eq is ?_
        rw [Document.text_parse, eq]
        exact ImportLine.standAt_of_mem_placed mem ⟨[], behind, rfl, rfl⟩
    _ = (ImportLine.namesFrom path lines).map some := by rw [placed, List.map_flatMap]

/-- The first line from the path tells what the first import does. -/
theorem tells_of_lines (eq : text.toList = Stretch.text (ImportLine.layout lines) ++ behind)
    (lacks : LacksImport behind) (tells : FirstTells (Document.parse text) symbol path)
    {l : ImportLine} (first : lines.find? (fun l => l.path == path) = some l)
    (named : l.subject.list?.isSome) (there : symbol ∈ ImportLine.namesFrom path lines) :
    symbol ∈ l.names := by
  rw [← ImportLine.map_placed 0 lines, List.find?_map] at first
  obtain ⟨⟨position, _⟩, first_line, rfl⟩ := Option.map_eq_some_iff.mp first
  have lines_found := (imports_of_lines eq (length_imports_of_lines eq lacks)).flip
  obtain ⟨found, first_found, is⟩ := exists_find?_forall₂ lines_found
    (q := fun found => found.path == path) (fun line found is => by rw [is.path]; rfl) first_line
  have found_named : found.named.isSome := by
    rw [← Option.isSome_map, is.named, Option.isSome_map]
    exact named
  have known := tells found first_found found_named (by
    rw [namesFrom_of_lines eq lacks]
    exact List.mem_map_of_mem there)
  rw [namesIn_eq is] at known
  · simpa using known
  · rw [Document.text_parse, eq]
    exact ImportLine.standAt_of_mem_placed (List.mem_of_find?_eq_some first_line)
      ⟨[], behind, rfl, rfl⟩

/-- Where the first line from the path tells whether the symbol is imported, it is not imported a second
time. -/
theorem Added.count_namesFrom_le {word : IsWord symbol} {plain : IsPlainPath path}
    {lines lines' : List ImportLine} (added : Added word plain lines lines')
    (tells : ∀ l, lines.find? (fun l => l.path == path) = some l → l.subject.list?.isSome →
      symbol ∈ ImportLine.namesFrom path lines → symbol ∈ l.names) :
    (ImportLine.namesFrom path lines').count symbol ≤
      max 1 ((ImportLine.namesFrom path lines).count symbol) := by
  cases added with
  | kept => exact Nat.le_max_right _ _
  | @name init rest l list others from_path named lacks =>
    have lacks' : symbol ∉ l.names := by
      rw [ImportLine.names, named]
      exact lacks
    have nowhere : symbol ∉ ImportLine.namesFrom path (init ++ l :: rest) := fun there =>
      lacks' (tells l (find?_append_cons others from_path) (by rw [named]; rfl) there)
    rw [ImportLine.namesFrom_append_cons others from_path, List.mem_append, not_or] at nowhere
    refine Nat.le_trans (Nat.le_of_eq ?_) (Nat.le_max_left _ _)
    calc (ImportLine.namesFrom path (init ++ l.withName word :: rest)).count symbol
        = (l.names ++ [symbol] ++ ImportLine.namesFrom path rest).count symbol := by
          rw [ImportLine.namesFrom_append_cons (l := l.withName word) others from_path,
            ImportLine.names_withName named]
      _ = 1 := by
          simp [List.count_append, List.count_eq_zero.mpr nowhere.1,
            List.count_eq_zero.mpr nowhere.2]
  | first =>
    have own : ImportLine.namesFrom path [.ofName word plain .nothing .nothing] = [symbol] :=
      ImportLine.namesFrom_concat_ofName (List.forall_mem_nil _) word plain .nothing .nothing
    rw [own, List.count_singleton_self]
    exact Nat.le_max_left _ _
  | @last init l others =>
    have others' : ∀ k ∈ init ++ [{ l with afterPath := .nothing }], k.path ≠ path :=
      List.forall_mem_append.mpr ⟨fun k mem => others k (List.mem_append_left _ mem),
        List.forall_mem_singleton.mpr (others l (by simp))⟩
    rw [List.append_cons, ImportLine.namesFrom_concat_ofName others', List.count_singleton_self]
    exact Nat.le_max_left _ _

end Lines

end AngularModule.Registration

namespace Component

open AngularModule AngularModule.Registration

/-- **A class is imported once**, if the first import from its path tells whether it is imported: where
it is imported, nothing but its declaration is planned, and where the imports are lines at the top of
the file, a plan does not have it imported a second time. -/
theorem count_namesFrom_of_plan {text className importPath : String} (path : String)
    (tells : FirstTells (Document.parse text) className.toList importPath.toList) :
    (some className.toList ∈ namesFrom (Document.parse text) importPath.toList →
      plan (Document.parse text) className importPath =
        ((metadata? (Document.parse text)).bind fun metadata =>
          declarationAddition? (Document.parse text) metadata className.toList).toList) ∧
    ∀ {lines : List ImportLine} {behind : List Char},
      text.toList = Stretch.text (ImportLine.layout lines) ++ behind → HidesImport behind →
      Node.WellFormed (Document.parse text).text (Document.parse text).root →
      IsClassName className.toList → IsPlainPath importPath.toList →
      ∃ s, (Session.start path text).insertAll
          ((plan (Document.parse text) className importPath).map asInsertion) = .ok s ∧
        (namesFrom (Document.parse s.apply) importPath.toList).count (some className.toList) ≤
          max 1 ((namesFrom (Document.parse text) importPath.toList).count
            (some className.toList)) := by
  refine ⟨fun there => ?_, fun {lines behind} eq hides wellFormed isName plain => ?_⟩
  · rw [plan]
    cases metadata? (Document.parse text) with
    | none => rfl
    | some metadata =>
      cases found : declarationAddition? (Document.parse text) metadata className.toList with
      | none => simp [found]
      | some declaration => simp [found, importAddition?_eq_none tells there]
  · by_cases none_planned : plan (Document.parse text) className importPath = []
    · refine ⟨Session.start path text, ?_, ?_⟩
      · rw [none_planned]
        rfl
      · rw [Session.apply_start]
        exact Nat.le_max_right _ _
    · obtain ⟨s, lines', behind', accepted, edited, lacks, added⟩ :=
        exists_lines_of_plan path eq hides wellFormed isName plain none_planned
      have once := added.count_namesFrom_le fun l first =>
        tells_of_lines eq hides.lacksImport tells first
      refine ⟨s, accepted, ?_⟩
      rw [namesFrom_of_lines edited lacks, namesFrom_of_lines eq hides.lacksImport,
        List.count_map_of_injective _ _ (Option.some_injective _),
        List.count_map_of_injective _ _ (Option.some_injective _)]
      exact once

/-- The class is imported under another name by the first of two statements from its path. -/
theorem count_namesFrom_of_plan_renamed :
    let text := "import\x7bAComponent as A,\x7dfrom'a';import \x7bB\x7d from \"a\";@NgModule(\x7b\x7d)class M\x7b\x7d"
    let file := Document.parse text
    FirstTells file "AComponent".toList ['a'] ∧
    some "AComponent".toList ∈ namesFrom file ['a'] ∧
    plan file "AComponent" "a" = ((metadata? file).bind fun metadata =>
      declarationAddition? file metadata "AComponent".toList).toList ∧
    ∃ s, (Session.start "m.ts" text).insertAll ((plan file "AComponent" "a").map asInsertion) =
        .ok s ∧
      (namesFrom (Document.parse s.apply) ['a']).count (some "AComponent".toList) ≤
        max 1 ((namesFrom file ['a']).count (some "AComponent".toList)) := by
  intro text file
  let first : ImportLine :=
    ⟨.nothing, .values (.names ⟨.nothing, [⟨.nothing, "AComponent".toList, by decide,
      some ⟨.single, .single, ⟨['A'], by decide, Keyword.ofChars?_eq_none List.mem_cons_self rfl⟩⟩,
      .nothing, true⟩], List.forall_mem_nil _, .nothing⟩ .nothing), .nothing, '\'', .inl rfl, ['a'],
      by decide, .nothing⟩
  let second : ImportLine :=
    ⟨.nothing, .values (.names ⟨.single, [⟨.nothing, ['B'], by decide, none, .nothing, false⟩],
      List.forall_mem_nil _, .nothing⟩ .single), .single, '"', .inr rfl, ['a'], by decide, .nothing⟩
  have eq : text.toList = Stretch.text (ImportLine.layout [first, second]) ++
      "@NgModule(\x7b\x7d)class M\x7b\x7d".toList := by
    rw [String.toList_ofList, String.toList_ofList]
    rfl
  have file_eq : file = _ := Document.parse_ofList _
  obtain ⟨checked, names, there⟩ : file.root.checks file.text = true ∧
      ((imports file).find? fun found => found.path == ['a']).map (namesIn file) =
        some [some "AComponent".toList] ∧
      some "AComponent".toList ∈ namesFrom file ['a'] := by
    rw [file_eq]
    decide +kernel
  have tells : FirstTells file "AComponent".toList ['a'] := by
    intro found is _ _
    rw [is] at names
    rw [Option.some.inj names]
    exact List.mem_singleton_self _
  have tells' : FirstTells file "AComponent".toList "a".toList := tells
  obtain ⟨alone, once⟩ := count_namesFrom_of_plan "m.ts" tells'
  exact ⟨tells, there, alone there, once eq (by decide +kernel)
    (Node.wellFormed_of_checks _ checked) ⟨by decide, by decide, by decide⟩ (by decide)⟩

set_option maxRecDepth 4000 in
/-- **Imported twice**: the class is added to the first import from its path, and the second one has it
already. -/
theorem count_namesFrom_of_second :
    let text := "import \x7b B \x7d from './a.component';\nimport \x7b AComponent \x7d from './a.component';\n@NgModule(\x7b declarations: [] \x7d)\nexport class M \x7b\x7d\n"
    let file := Document.parse text
    let added := plan file "AComponent" "./a.component"
    Node.WellFormed file.text file.root ∧
      (importAddition? file "AComponent".toList "./a.component".toList).isSome ∧
      (namesFrom file "./a.component".toList).count (some "AComponent".toList) = 1 ∧
      ((Session.start "m.ts" text).insertAll (added.map asInsertion)).toOption.map
        (fun s => (s.apply, (namesFrom (Document.parse s.apply) "./a.component".toList).count
          (some "AComponent".toList))) =
      some ("import \x7b B, AComponent \x7d from './a.component';\nimport \x7b AComponent \x7d from './a.component';\n@NgModule(\x7b declarations: [AComponent] \x7d)\nexport class M \x7b\x7d\n", 2) :=
  (and_congr_right fun _ => and_assoc).mp <| map_apply_of_evaluated
    (fun file => (importAddition? file "AComponent".toList "./a.component".toList).isSome ∧
      (namesFrom file "./a.component".toList).count (some "AComponent".toList) = 1)
    (fun file => (namesFrom file "./a.component".toList).count (some "AComponent".toList)) rfl rfl
    (by decide +kernel)

end Component

end ModelGrid
