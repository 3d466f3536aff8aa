import ModelGrid.Proofs.Component.Column
import ModelGrid.Proofs.Component.Rerun
import ModelGrid.Proofs.Component.Row
import ModelGrid.Proofs.Store.Temporary
import ModelGrid.Proofs.Store.Turns

/-!
# Steps done again and again

Columns and rows that are inserted again stand there again.  Each time the file holds all that was
inserted before: columns are statements in front of the `return` that the next ones go in front of,
and rows are statements behind the brace that the next one goes behind, with a `return` of their own.
What carries the induction is that both read as statements wherever they stand, so that the anchor is
where the skeleton has it, however many there are.

Each step puts the file in place of itself through a temporary file; all steps succeed if one can be
written.

## Main definitions

* `Layout.Passed`: stretches that are statements without a `return`, wherever they stand.
* `Anchored`: a text with something put in at its anchor.

## Main results

* `Layout.passed_columnRuns`: columns one after another.
* `anchored_columns`, `anchored_rows`: what one step does to a file with the columns or rows of others.
* `inTurn_insertAt`: insertions one after another.
* `holds_of_repeated`: what is left of steps done again and again.
-/

namespace ModelGrid.Component

open Store Edit Syntax Grammar Stretch Store.Action Disk Model

namespace Layout

/-! ### Columns one after another -/

/-- Wherever the stretches stand they are statements that a search for a `return` passes over, and the
last of these ends where the stretches do. -/
def Passed (lines : List Stretch) : Prop :=
  ∀ n position afterBreak rest, ∃ nodes afterBreak',
    Phrase.Reads (read (n + 16) .statement) (tokensFrom position afterBreak (lines ++ rest)) nodes
        (tokensFrom (position + Text.size (text lines)) afterBreak' rest) ∧
      ∀ start, PassedUpTo start (position + Text.size (text lines)) nodes

theorem passed_column (p : Property) : Passed (columnStatement p) := by
  intro n position afterBreak rest
  let tokens := tokensFrom position afterBreak (columnStatement p)
  let t := Token.nth tokens
  have kinds (i : Nat) : (t i).kind = (columnKinds[i]?).getD .stray := by
    rw [Token.kind_nth, kinds_column]
  let behind := position + Text.size (text (columnStatement p))
  have cut : tokensFrom position afterBreak (columnStatement p ++ rest) =
      tokens ++ tokensFrom behind false rest :=
    tokensFrom_append_lexeme position afterBreak (columnStatement p).dropLast (.mark .semicolon)
      ";".toList rest
  have all : tokens = (List.range' 0 21).map t := Token.eq_map_nth tokens
  have ends : (t 20).stop = behind :=
    stop_nth position afterBreak (columnStatement p).dropLast (.mark .semicolon) ";".toList [] rfl
  have one := read_column n kinds (tokensFrom behind false rest)
  rw [← all] at one
  refine ⟨[columnNode t], false, ?_, fun start => ⟨rfl, ?_, ends⟩⟩
  · rw [cut]
    exact .single one (by simp [all, behind])
  · intro node mem
    rw [List.mem_singleton.mp mem]
    rfl

theorem passed_gap (spaces : String) {lines : List Stretch} (passed : Passed lines) :
    Passed (gap spaces :: lines) := by
  intro n position afterBreak rest
  obtain ⟨nodes, afterBreak', reads, passes⟩ := passed n (position + Text.size spaces.toList)
    (afterBreak || spaces.toList.any isLineBreak) rest
  have size : position + Text.size (text (gap spaces :: lines)) =
      position + Text.size spaces.toList + Text.size (text lines) := by
    rw [text_cons, Text.size_append, ← Nat.add_assoc]
    rfl
  rw [size]
  exact ⟨nodes, afterBreak', reads, passes⟩

theorem Passed.append {front back : List Stretch} (passed : Passed front) (later : Passed back) :
    Passed (front ++ back) := by
  intro n position afterBreak rest
  obtain ⟨nodes, afterBreak', reads, passes⟩ := passed n position afterBreak (back ++ rest)
  obtain ⟨more, afterBreak'', reads', passes'⟩ :=
    later n (position + Text.size (text front)) afterBreak' rest
  rw [text_append, Text.size_append, ← Nat.add_assoc, List.append_assoc]
  exact ⟨nodes ++ more, afterBreak'', reads.trans reads', fun start => (passes start).append (passes' _)⟩

theorem passed_flatten {parts : List (List Stretch)} (some_part : parts ≠ [])
    (passed : ∀ part ∈ parts, Passed part) : Passed parts.flatten := by
  induction parts with
  | nil => exact absurd rfl some_part
  | cons first rest ih =>
    obtain ⟨passed_first, passed_rest⟩ := List.forall_mem_cons.mp passed
    rw [List.flatten_cons]
    by_cases last : rest = []
    · simpa [last] using passed_first
    · exact passed_first.append (ih last passed_rest)

/-- The block of columns: an empty line, then each column on a line. -/
def columnLines (ps : List Property) : List Stretch :=
  gap "\n" :: (ps.map fun p => gap "\n\t\t" :: columnStatement p).flatten

/-- Blocks of columns one after another. -/
def columnRuns (ps : List Property) (k : Nat) : List Stretch :=
  (List.replicate k (columnLines ps)).flatten

variable {ps : List Property}

theorem text_columnLines (ps : List Property) :
    text (columnLines ps) = (Contribution.columnBlock ps).toList := by
  have lines : text (ps.map fun p => gap "\n\t\t" :: columnStatement p).flatten =
      ps.flatMap fun p => '\n' :: ("\t\t".toList ++ (Contribution.columnStatement p).toList) := by
    rw [text, ← List.flatMap_def, List.flatMap_assoc]
    exact List.flatMap_congr fun p _ => by
      rw [← text_column]
      simp [text, gap, chars]
  rw [Contribution.toList_columnBlock, Contribution.block, columnLines, text_cons, lines,
    List.append_nil]
  rfl

/-- Columns in any number. -/
theorem passed_columnRuns (some_column : ps ≠ []) (k : Nat) : Passed (columnRuns ps (k + 1)) := by
  have block : Passed (columnLines ps) := by
    refine passed_gap _ (passed_flatten (by simpa using some_column) fun part mem => ?_)
    obtain ⟨p, -, rfl⟩ := List.mem_map.mp mem
    exact passed_gap _ (passed_column p)
  refine passed_flatten (by simp) fun part mem => ?_
  rw [List.eq_of_mem_replicate mem]
  exact block

/-- Without properties there are no columns, only empty lines. -/
theorem tokensFrom_columnRuns_nil (position : Nat) (afterBreak : Bool) (k : Nat) :
    tokensFrom position afterBreak (columnRuns [] k) = [] := by
  induction k generalizing position afterBreak with
  | zero => rfl
  | succ k ih => exact ih _ _

theorem statementsUpTo_of_passed {lines : List Stretch} (passed : Passed lines) (position : Nat) :
    StatementsUpTo position (position + Text.size (text lines)) lines := by
  intro n
  obtain ⟨nodes, afterBreak, reads, passes⟩ := passed (n + 3) position false dataServiceBack
  exact ⟨nodes, _, afterBreak, reads, passes position⟩

theorem statementsUpTo_of_no_tokens {lines : List Stretch} {position : Nat}
    (none : tokensFrom position false lines = []) : StatementsUpTo position position lines := by
  intro n
  obtain ⟨afterBreak, eq⟩ := tokensFrom_append position false lines dataServiceBack
  rw [none, List.nil_append] at eq
  refine ⟨[], position + Text.size (text lines), afterBreak, ?_, .nil position⟩
  rw [eq]
  exact .nil _

theorem scans_columnLines (plain : ∀ p ∈ ps, Lexeme.IsQuoted '\'' p.title.toList ∧
    Lexeme.IsQuoted '\'' p.name.toList) {rest : List Stretch} (later : Scans rest) :
    Scans (columnLines ps ++ rest) := by
  have lines : Scans ((ps.map fun p => gap "\n\t\t" :: columnStatement p).flatten ++ rest) := by
    induction ps with
    | nil => exact later
    | cons p ps ih =>
      obtain ⟨⟨title, name⟩, others⟩ := List.forall_mem_cons.mp plain
      rw [List.map_cons, List.flatten_cons, List.append_assoc]
      exact scans_gap (List.all_eq_true.mp (by decide)) (scans_column title name (ih others))
  exact scans_gap (List.all_eq_true.mp (by decide)) lines

theorem scans_columnRuns (plain : ∀ p ∈ ps, Lexeme.IsQuoted '\'' p.title.toList ∧
    Lexeme.IsQuoted '\'' p.name.toList) (k : Nat) : Scans (columnRuns ps k ++ dataServiceBack) := by
  induction k with
  | zero => exact scans_dataServiceBack
  | succ k ih =>
    rw [columnRuns, List.replicate_succ, List.flatten_cons, List.append_assoc]
    exact scans_columnLines plain ih

end Layout

/-! ### What a step does to a file -/

/-- The text with the insertion put in at its anchor is the other text. -/
def Anchored (anchor : Anchor) (insertion before after : String) : Prop :=
  ∃ front back, before = front ++ back ∧ after = front ++ insertion ++ back ∧
    anchor.offset? (Document.parse before) = some (Text.size front.toList)

/-- The data service with its columns registered a number of times. -/
def Blueprint.serviceWith (b : Blueprint) (ps : List Property) (k : Nat) : String :=
  b.serviceFront ++ String.join (List.replicate k (Contribution.columnBlock ps)) ++ serviceBack

/-- The constants with a row returned a number of times. -/
def Blueprint.constantsWith (b : Blueprint) (formatting : Formatting) (ps : List Property) (k : Nat) :
    String :=
  b.constantsFront ++ "\x7b" ++ String.join (List.replicate k (Contribution.rowBlock formatting ps)) ++
    constantsBack

variable {w : Workspace} {b : Blueprint} {formatting : Formatting} {ps : List Property}
  {d written : Disk} {path text : String} {anchor : Anchor} {l t : Location}

theorem toList_join_replicate {lines : List Stretch} {block : String}
    (same : Stretch.text lines = block.toList) (k : Nat) :
    (String.join (List.replicate k block)).toList = Stretch.text (List.replicate k lines).flatten := by
  induction k with
  | zero => rfl
  | succ k ih =>
    rw [List.replicate_succ, List.replicate_succ, List.flatten_cons, text_append, ← ih, same,
      String.join_cons, String.toList_append]

theorem join_replicate_succ (k : Nat) (block : String) :
    String.join (List.replicate (k + 1) block) = String.join (List.replicate k block) ++ block := by
  rw [← String.toList_inj]
  simp [List.replicate_succ']

theorem toList_serviceWith (b : Blueprint) (ps : List Property) (k : Nat) :
    (b.serviceWith ps k).toList = Stretch.text (Layout.dataServiceFront b.values ++
      (Layout.columnRuns ps k ++ Layout.dataServiceBack)) := by
  rw [Blueprint.serviceWith, String.toList_append, String.toList_append, toList_serviceFront,
    toList_serviceBack, toList_join_replicate (Layout.text_columnLines ps), text_append, text_append,
    List.append_assoc, Layout.columnRuns]

theorem toList_constantsWith (b : Blueprint) (formatting : Formatting) (ps : List Property) (k : Nat) :
    (b.constantsWith formatting ps k).toList = Stretch.text (Layout.constantsFront b.values ++
      (Layout.rowRuns formatting ps k ++ Layout.constantsBack)) := by
  rw [Blueprint.constantsWith, String.toList_append, String.toList_append, toList_constantsFront,
    toList_constantsBack, toList_join_replicate (Layout.text_rowLines formatting ps), text_append,
    text_append, List.append_assoc, Layout.rowRuns]

/-- **Columns in front of the `return`**, where others may be already. -/
theorem anchored_columns (named : b.Named)
    (names : ∀ p ∈ ps, Lexeme.IsWord p.name.toList)
    (titles : ∀ p ∈ ps, Lexeme.IsQuoted '\'' p.title.toList) (k : Nat) :
    Anchored .beforeReturn (Contribution.columnBlock ps) (b.serviceWith ps k)
      (b.serviceWith ps (k + 1)) := by
  have scans := Layout.scans_columnRuns
    (fun p mem => ⟨titles p mem, Lexeme.isQuoted_of_isWord (names p mem)⟩) k
  have anchor {stop : Nat} (statements : Layout.StatementsUpTo
      (Text.size (Stretch.text (Layout.dataServiceFront b.values))) stop (Layout.columnRuns ps k)) :=
    Layout.offset?_dataService (fit_values named) (Layout.columnRuns ps k) scans statements
      (toList_serviceWith b ps k)
  by_cases tokens : ps = [] ∨ k = 0
  · -- in front of the `return` there is white space only, and the anchor is in front of that
    have none (position : Nat) : tokensFrom position false (Layout.columnRuns ps k) = [] := by
      rcases tokens with rfl | rfl
      · exact Layout.tokensFrom_columnRuns_nil position false k
      · rfl
    refine ⟨b.serviceFront, String.join (List.replicate k (Contribution.columnBlock ps)) ++ serviceBack,
      String.append_assoc .., ?_, ?_⟩
    · rw [Blueprint.serviceWith, List.replicate_succ, String.join_cons]
      simp only [String.append_assoc]
    · rw [toList_serviceFront]
      exact anchor (Layout.statementsUpTo_of_no_tokens (none _))
  · obtain ⟨some_column, some_run⟩ := not_or.mp tokens
    obtain ⟨k, rfl⟩ := Nat.exists_eq_succ_of_ne_zero some_run
    refine ⟨b.serviceFront ++ String.join (List.replicate (k + 1) (Contribution.columnBlock ps)),
      serviceBack, rfl, ?_, ?_⟩
    · rw [Blueprint.serviceWith, join_replicate_succ (k + 1), ← String.append_assoc]
    · rw [String.toList_append, Text.size_append, toList_serviceFront,
        toList_join_replicate (Layout.text_columnLines ps)]
      exact anchor (Layout.statementsUpTo_of_passed (Layout.passed_columnRuns some_column k) _)

/-- **A row behind the brace** of the mapping function, where others may be already. -/
theorem anchored_rows (named : b.Named) (names : ∀ p ∈ ps, Lexeme.IsWord p.name.toList)
    (plain : Layout.Plain formatting) (k : Nat) :
    Anchored .arrowBodyStart (Contribution.rowBlock formatting ps) (b.constantsWith formatting ps k)
      (b.constantsWith formatting ps (k + 1)) := by
  refine ⟨b.constantsFront ++ "\x7b",
    String.join (List.replicate k (Contribution.rowBlock formatting ps)) ++ constantsBack,
    String.append_assoc .., ?_, ?_⟩
  · rw [Blueprint.constantsWith, List.replicate_succ, String.join_cons]
    simp only [String.append_assoc]
  · rw [toList_constantsFront]
    exact Layout.offset?_constants (fit_values named) (Layout.rowRuns formatting ps k)
      (Layout.scans_rowRuns plain names k) (Layout.statementsIn_rowRuns formatting ps k _)
      (toList_constantsWith b formatting ps k)

/-! ### Insertions one after another -/

/-- An insertion at an anchor of a file whose temporary file can be written. -/
theorem insertAt_of_anchored {before after : String} (anchored : Anchored anchor text before after)
    (placed : Placed w d path (l, t)) (there : d.entry? l = some (.file (.text before))) :
    (insertAt w path anchor text).on d = (.ok (), d.replace t l (.text after)) := by
  obtain ⟨front, back, rfl, rfl, found⟩ := anchored
  exact insertAt_of_leads there found placed.temporary placed.file

/-- An insertion at an anchor of a file whose temporary file cannot be written. -/
theorem insertAt_of_obstacle {before after : String} {why : DiskFault}
    (anchored : Anchored anchor text before after) (leads : d.Leads (w.pathOf path) l)
    (there : d.entry? l = some (.file (.text before))) (obstacle : d.obstacle? l = some why) :
    (insertAt w path anchor text).on d = (.error (.disk .write path why), d) := by
  obtain ⟨front, back, rfl, -, found⟩ := anchored
  have accepts : ∃ s, (Session.start path (front ++ back)).insert (Text.size front.toList) text .right =
      .ok s := ⟨_, dif_pos (isBoundary_size front back)⟩
  obtain ⟨s, accepted⟩ := accepts
  have same_path : s.path = path := path_of_insert accepted
  have here : anchor.offset? (Document.parse (Session.start path (front ++ back)).snapshot) =
    some (Text.size front.toList) := found
  have saving : (w.save s).on d = (.error (.disk .write path why), d) := by
    have outcome := Workspace.on_save (s := s) (same_path ▸ leads)
    rw [obstacle, same_path] at outcome
    exact outcome
  unfold insertAt
  rw [on_bind, session_eq_ok.mpr ⟨rfl, _, ⟨l, find_of_leads leads there⟩, rfl⟩]
  simp only [here]
  rw [on_bind, insert_eq_ok.mpr ⟨rfl, accepted⟩]
  exact saving

/-- **Insertions one after another**: each of them finds its anchor in the text that the one before it
has left, and nothing else is changed. -/
theorem inTurn_insertAt {texts : Nat → String}
    (anchored : ∀ k, Anchored anchor text (texts k) (texts (k + 1)))
    (placed : Placed w d path (l, t)) {k : Nat} (there : d.entry? l = some (.file (.text (texts k))))
    (n : Nat) :
    ∃ d', (inTurn (List.replicate n (insertAt w path anchor text))).on d = (.ok (), d') ∧
      d'.entry? l = some (.file (.text (texts (k + n)))) ∧ SameFolders d d' ∧
      ∀ x, x ≠ t → x ≠ l → d'.entry? x = d.entry? x := by
  induction n generalizing d k with
  | zero => exact ⟨d, rfl, there, .refl d, fun _ _ _ => rfl⟩
  | succ n ih =>
    have replaced := placed.replaced (.text (texts (k + 1)))
    have same := placed.sameFolders (.text (texts (k + 1)))
    obtain ⟨d', later, there', same', other⟩ := ih (placed.of_sameFolders same) replaced.file
    refine ⟨d', ?_, by rw [there', Nat.add_assoc, Nat.add_comm 1], same.trans same', fun x apart apart' => ?_⟩
    · exact on_bind_eq_ok.mpr ⟨(), _, insertAt_of_anchored (anchored k) placed there, later⟩
    · rw [other x apart apart', replaced.other x apart apart']

/-! ### Columns and rows again and again -/

/-- Where a file is, and its temporary file, if nothing is in the way of that. -/
theorem exists_placed {held : String} (holds : w.Holds d path held)
    (free : ∀ l, d.Leads (w.pathOf path) l → d.obstacle? l = none) :
    ∃ l, Placed w d path (l, temporaryAt l) ∧ d.entry? l = some (.file (.text held)) := by
  obtain ⟨l, found⟩ := holds
  have leads := leads_of_find found
  exact ⟨l, ⟨leads, (Workspace.leads_temporaryOf_iff leads).mpr ⟨free l leads, rfl⟩⟩,
    (find_eq_ok_file.mp found).2.1⟩

/-- The files of a component are apart. -/
theorem apart_of_mem_generated {path' extension extension' : String} (named : b.Named) (w : Workspace)
    (d : Disk) (mem : (path, extension) ∈ b.generated) (mem' : (path', extension') ∈ b.generated)
    (ne : extension ≠ extension') : w.Apart d path path' := by
  intro l l' leads leads'
  have last := getLast?_of_resolve leads.resolve
  have last' := getLast?_of_resolve leads'.resolve
  have temporary (x : Location) : (temporaryAt x).getLast? =
      some (x.getLastD "" ++ Workspace.temporarySuffix) := by
    simp [temporaryAt]
  refine ⟨?_, ?_, ?_⟩
  · rintro rfl
    exact b.getLast?_ne named w mem mem' ne (last.symm.trans last')
  · rintro rfl
    exact b.not_temporary named w mem _ (last.symm.trans (temporary l'))
  · rintro rfl
    exact b.not_temporary named w mem' _ (last'.symm.trans (temporary l))

/-- **Columns and rows again and again.**  On the skeletons of a component, as long as a temporary file
can be written beside the data service and beside the constants, columns can be added any number of
times and rows any number of times.  The data service is then its skeleton with as many copies of the
columns in front of the line of the `return`, and the constants are their skeleton with as many copies
of the row behind the brace of the mapping function. -/
theorem holds_of_repeated {files : List String} (named : b.Named)
    (names : ∀ p ∈ ps, Naming.IsFieldName p.name)
    (titles : ∀ p ∈ ps, Lexeme.IsQuoted '\'' p.title.toList) (plain : Layout.Plain formatting)
    (writing : (Skeleton.write w b.targetFolder b.values).on d = (.ok files, written))
    (free : ∀ path ∈ [b.serviceFile, b.constantsFile],
      ∀ l, written.Leads (w.pathOf path) l → written.obstacle? l = none) (m n : Nat) :
    b.skeleton Skeleton.dataService = b.serviceFront ++ serviceBack ∧
    b.skeleton Skeleton.constants = b.constantsFront ++ "\x7b" ++ constantsBack ∧
    ∃ d', (inTurn (List.replicate m (addColumns w b ps) ++
        List.replicate n (addRow w b formatting ps))).on written = (.ok (), d') ∧
      w.Holds d' b.serviceFile (b.serviceFront ++
        String.join (List.replicate m (Contribution.columnBlock ps)) ++ serviceBack) ∧
      w.Holds d' b.constantsFile (b.constantsFront ++ "\x7b" ++
        String.join (List.replicate n (Contribution.rowBlock formatting ps)) ++ constantsBack) := by
  have words : ∀ p ∈ ps, Lexeme.IsWord p.name.toList :=
    fun p mem => Lexeme.isWord_of_isFieldName (names p mem)
  have skeletons := written_of_write named writing
  have service_eq := (skeleton_dataService named).1
  have constants_eq := (skeleton_constants named).1
  refine ⟨service_eq, constants_eq, ?_⟩
  obtain ⟨service, service_placed, service_there⟩ :=
    exists_placed skeletons.service (free b.serviceFile (by simp))
  obtain ⟨constants, constants_placed, constants_there⟩ :=
    exists_placed skeletons.constants (free b.constantsFile (by simp))
  have service_mem : (b.serviceFile, "service.ts") ∈ b.generated := by simp [Blueprint.generated]
  have constants_mem : (b.constantsFile, "component.constants.ts") ∈ b.generated := by
    simp [Blueprint.generated]
  obtain ⟨files_apart, from_temporary, temporary_from⟩ :=
    apart_of_mem_generated named w written service_mem constants_mem (by decide) service constants
      service_placed.file constants_placed.file
  -- the columns
  have service_start : b.serviceWith ps 0 = b.skeleton Skeleton.dataService := by
    rw [service_eq, Blueprint.serviceWith, List.replicate_zero, String.join_nil, String.append_empty]
  rw [← service_start] at service_there
  obtain ⟨columns, adding, service_held, same, other⟩ :=
    inTurn_insertAt (anchored_columns named words titles) service_placed service_there m
  -- the rows
  have constants_start : b.constantsWith formatting ps 0 = b.skeleton Skeleton.constants := by
    rw [constants_eq, Blueprint.constantsWith, List.replicate_zero, String.join_nil,
      String.append_empty]
  rw [← constants_start, ← other constants temporary_from.symm files_apart.symm] at constants_there
  obtain ⟨rows, adding', constants_held, same', other'⟩ :=
    inTurn_insertAt (anchored_rows named words plain) (constants_placed.of_sameFolders same)
      constants_there n
  rw [← other' service from_temporary files_apart, Nat.zero_add] at service_held
  rw [Nat.zero_add] at constants_held
  have all_same := same.trans same'
  refine ⟨rows, inTurn_append_eq_ok.mpr ⟨columns, adding, adding'⟩, ?_, ?_⟩
  · exact ⟨service, find_of_leads (service_placed.file.of_sameFolders all_same) service_held⟩
  · exact ⟨constants, find_of_leads (constants_placed.file.of_sameFolders all_same) constants_held⟩

/-- Two properties, one called like a keyword and one with a title that looks like code. -/
theorem holds_of_repeated_keyword :
    let w : Workspace := ⟨.ofString "/"⟩
    let b := dottedBlueprint
    let ps : List Property := [⟨"if", .dateTime, "Größe \"m\""⟩, ⟨"born_At", .string, "return;"⟩]
    ∃ d', (inTurn (List.replicate 2 (addColumns w b ps) ++ List.replicate 3 (addRow w b {} ps))).on
        ((Skeleton.write w b.targetFolder b.values).on dottedDisk).2 = (.ok (), d') ∧
      w.Holds d' "s/x/x-data.service.ts" (b.serviceFront ++
        String.join (List.replicate 2 (Contribution.columnBlock ps)) ++ serviceBack) ∧
      w.Holds d' "s/x/x.component.constants.ts" (b.constantsFront ++ "\x7b" ++
        String.join (List.replicate 3 (Contribution.rowBlock {} ps)) ++ constantsBack) := by
  intro w b ps
  let written := ((Skeleton.write w b.targetFolder b.values).on dottedDisk).2
  have writing := eq_mk_of_fst_eq (p := (Skeleton.write w b.targetFolder b.values).on dottedDisk)
    (a := .ok ["s/x/x.component.ts", "s/x/x.component.html", "s/x/x-data.service.ts",
      "s/x/x.component.constants.ts"]) (by decide +kernel)
  have service : written.Leads (w.pathOf b.serviceFile) ["s", "x", "x-data.service.ts"] ∧
      written.obstacle? ["s", "x", "x-data.service.ts"] = none := by decide +kernel
  have constants : written.Leads (w.pathOf b.constantsFile) ["s", "x", "x.component.constants.ts"] ∧
      written.obstacle? ["s", "x", "x.component.constants.ts"] = none := by decide +kernel
  have free {path : String} {l : Location}
      (spot : written.Leads (w.pathOf path) l ∧ written.obstacle? l = none) :
      ∀ l, written.Leads (w.pathOf path) l → written.obstacle? l = none :=
    fun _ leads => spot.1.unique leads ▸ spot.2
  have names : ∀ p ∈ ps, Naming.IsFieldName p.name := by decide
  have titles : ∀ p ∈ ps, Lexeme.IsQuoted '\'' p.title.toList := by decide
  exact (holds_of_repeated named_dottedBlueprint names titles ⟨by decide, by decide⟩ writing
    (List.forall_mem_cons.mpr ⟨free service, List.forall_mem_singleton.mpr (free constants)⟩) 2 3).2.2

/-! ### No temporary file -/

/-- Columns that cannot be added: no temporary file can be written beside the data service. -/
theorem addColumns_of_obstacle {files : List String} {why : DiskFault} (named : b.Named)
    (writing : (Skeleton.write w b.targetFolder b.values).on d = (.ok files, written))
    (leads : written.Leads (w.pathOf b.serviceFile) l) (obstacle : written.obstacle? l = some why)
    (names : ∀ p ∈ ps, Lexeme.IsWord p.name.toList)
    (titles : ∀ p ∈ ps, Lexeme.IsQuoted '\'' p.title.toList) :
    (addColumns w b ps).on written = (.error (.disk .write b.serviceFile why), written) := by
  have skeleton : b.serviceWith ps 0 = b.skeleton Skeleton.dataService := by
    rw [(skeleton_dataService named).1, Blueprint.serviceWith, List.replicate_zero, String.join_nil,
      String.append_empty]
  obtain ⟨l', found⟩ := (written_of_write named writing).service
  obtain rfl := leads.unique (leads_of_find found)
  have there := (find_eq_ok_file.mp found).2.1
  rw [← skeleton] at there
  exact insertAt_of_obstacle (anchored_columns named names titles 0) leads there obstacle

/-- Skeletons are written where each has its place. -/
theorem writeAll_of_leads {folder : String} {p : Values} {files : List (String × List Piece)}
    (leads : ∀ f ∈ files, ∃ l, d.Leads (w.pathOf (folder ++ "/" ++ f.1)) l) :
    ∃ d', (Skeleton.writeAll w folder p files).on d =
        (.ok (files.map fun f => folder ++ "/" ++ f.1), d') ∧ SameFolders d d' := by
  induction files generalizing d with
  | nil => exact ⟨d, rfl, .refl d⟩
  | cons file rest ih =>
    obtain ⟨⟨l, here⟩, others⟩ := List.forall_mem_cons.mp leads
    have same : SameFolders d (d.put l (.file (.text (p.render (Piece.template file.2))))) :=
      sameFolders_put here.free
    obtain ⟨d', later, same'⟩ := ih fun f mem =>
      (others f mem).imp fun _ other => other.of_sameFolders same
    have first : (w.overwrite (folder ++ "/" ++ file.1) (p.render (Piece.template file.2))).on d =
        (.ok (), d.put l (.file (.text (p.render (Piece.template file.2))))) :=
      Workspace.overwrite_eq_ok_iff.mpr
        ⟨d, l, (Workspace.hasParent_of_leads here).makesWay, here, rfl⟩
    exact ⟨d', on_bind_eq_ok.mpr ⟨(), _, first, on_bind_eq_ok.mpr ⟨_, d', later, rfl⟩⟩,
      same.trans same'⟩

/-- A component whose name is so long that there is room for its files, and not for the names of their
temporary files. -/
def longBlueprint : Blueprint :=
  ⟨"D", String.ofList (List.replicate 225 'x'), "s/x", "s/app.module.ts"⟩

/-- A disk with the folder of the component. -/
def folderDisk : Disk := ⟨[], [(["s"], .folder), (["s", "x"], .folder)]⟩

theorem named_longBlueprint : longBlueprint.Named := by
  refine ⟨⟨'x', List.replicate 224 'x', String.toList_ofList, by decide, fun c mem => ?_⟩,
    ⟨'D', [], rfl, by decide, nofun⟩⟩
  rw [List.eq_of_mem_replicate mem]
  exact .inl (by decide)

theorem dashedName_longBlueprint : longBlueprint.dashedName = longBlueprint.componentName := by
  have spelled : Naming.dashed (List.replicate 225 'x') = List.replicate 225 'x' := by decide +kernel
  rw [Blueprint.dashedName, kebabCase, longBlueprint, String.toList_ofList, spelled]

/-- What the names of a component's files end in. -/
def fileEndings : List String :=
  [".component.ts", ".component.html", "-data.service.ts", ".component.constants.ts"]

/-- The files of that component have their places. -/
theorem leads_longBlueprint : ∀ f ∈ Skeleton.files longBlueprint.values,
    folderDisk.Leads (Workspace.pathOf ⟨.ofString "/"⟩ ("s/x" ++ "/" ++ f.1)) ["s", "x", f.1] := by
  have fits : ∀ ending ∈ fileEndings,
      let name := longBlueprint.componentName ++ ending
      (name ≠ "." ∧ name ≠ ".." ∧ name.utf8ByteSize ≤ nameLimit) ∧
        (folderDisk.entry? ["s", "x", name]).isNone = true := by
    decide +kernel
  have plain_endings : ∀ ending ∈ fileEndings,
      ending.toList ≠ [] ∧ '/' ∉ ending.toList ∧ '\x00' ∉ ending.toList := by
    decide
  have beside : folderDisk.Leads (Workspace.pathOf ⟨.ofString "/"⟩ ("s/x" ++ "/" ++ "a"))
      ["s", "x", "a"] := by
    decide +kernel
  intro f mem
  have listed : f.1 ∈ fileEndings.map (longBlueprint.values.dashedName ++ ·) :=
    List.mem_map_of_mem (f := Prod.fst) mem
  have dashed : longBlueprint.values.dashedName = longBlueprint.componentName :=
    dashedName_longBlueprint
  rw [dashed] at listed
  obtain ⟨ending, ending_mem, name⟩ := List.mem_map.mp listed
  obtain ⟨is, none⟩ := fits ending ending_mem
  obtain ⟨ne, no_slash, no_zero⟩ := plain_endings ending ending_mem
  have letters : (longBlueprint.componentName ++ ending).toList =
      List.replicate 225 'x' ++ ending.toList := by
    rw [String.toList_append, longBlueprint, String.toList_ofList]
  have other (c : Char) (apart : c ≠ 'x') (not_mem : c ∉ ending.toList) :
      c ∉ (longBlueprint.componentName ++ ending).toList := by
    rw [letters, List.mem_append]
    rintro (in_name | in_ending)
    · exact apart (List.eq_of_mem_replicate in_name)
    · exact not_mem in_ending
  have some_letter : (longBlueprint.componentName ++ ending).toList ≠ [] := by
    rw [letters]
    exact List.append_ne_nil_of_right_ne_nil _ ne
  have free : folderDisk.entry? ["s", "x", longBlueprint.componentName ++ ending] ≠ some .folder := by
    rw [Option.isNone_iff_eq_none.mp none]
    nofun
  rw [← name]
  exact Workspace.leads_of_isName beside (by decide) (by decide) is some_letter
    ⟨other '/' (by decide) no_slash, other '\x00' (by decide) no_zero⟩ free

/-- Columns cannot be added to that component. -/
theorem addColumns_long :
    let w : Workspace := ⟨.ofString "/"⟩
    let b := longBlueprint
    b.Named ∧ ∃ files written,
      (Skeleton.write w b.targetFolder b.values).on folderDisk = (.ok files, written) ∧
      (addColumns w b [⟨"b", .number, "A"⟩]).on written =
        (.error (.disk .write b.serviceFile .nameTooLong), written) := by
  intro w b
  obtain ⟨written, writing, same⟩ :=
    writeAll_of_leads (p := b.values) fun f mem => ⟨_, leads_longBlueprint f mem⟩
  have leads := leads_longBlueprint (b.dashedName ++ "-data.service.ts", Skeleton.dataService)
    (List.mem_cons_of_mem _ (List.mem_cons_of_mem _ List.mem_cons_self))
  have path : b.serviceFile = "s/x" ++ "/" ++ (b.dashedName ++ "-data.service.ts") :=
    String.append_assoc ..
  have long : nameLimit < (longBlueprint.componentName ++ "-data.service.ts" ++
    Workspace.temporarySuffix).utf8ByteSize := by decide +kernel
  rw [← dashedName_longBlueprint] at long
  have obstacle (name : String) (long : nameLimit < (name ++ Workspace.temporarySuffix).utf8ByteSize) :
      written.obstacle? ["s", "x", name] = some .nameTooLong := if_neg (Nat.not_le.mpr long)
  have service_leads : written.Leads (w.pathOf b.serviceFile)
      ["s", "x", b.dashedName ++ "-data.service.ts"] := by
    rw [path]
    exact leads.of_sameFolders same
  refine ⟨named_longBlueprint, _, written, writing, ?_⟩
  exact addColumns_of_obstacle named_longBlueprint writing service_leads (obstacle _ long)
    (List.forall_mem_singleton.mpr (by decide))
    (List.forall_mem_singleton.mpr (by decide))

end ModelGrid.Component
