import ModelGrid.Proofs.AngularModule.Search
import ModelGrid.Proofs.Text.Parts

/-!
# The chain that a module file is searched along

The search for a module file goes down a chain of folders: from the folder that it is given on to the
folder of the least name in it, and so on.  On a disk that is a tree it comes to an end without a
fault, as every step leaves fewer entries below.  The answer is decided by the chain: it is the path
of the first file, by the chain and then by name, that has the part in its name.

The order in which the disk has its entries decides nothing, since names are put in order before one
of them is taken.  The two looks at a folder, whether it is one and what is in it, are at the same
path, so that the second one cannot fail where the first one succeeds.

## Main definitions

* `OnChain`: names that lead down the chain.
* `Lacks`, `IsLeastFile`: no file of a folder has a part in its name, and the least one that has it.
* `pathBelow`: a path with names behind it.
* `AnswersFrom`: what a search answers from a folder on.

## Main results

* `answersFrom_of_searchUpTo`: the search along the chain.
* `on_searchUpTo_of_sameEntries`: the order of the entries.
* `searchModule_eq_ok`: the search for a module file.
-/

namespace ModelGrid

namespace Store.Disk

variable {d : Disk} {l : Location} {name other : String}

/-- In names in order, the first one that passes a test is the least one. -/
theorem le_of_find? {names : List String} {passes : String → Bool}
    (sorted : names.Pairwise (· ≤ ·)) (found : names.find? passes = some name)
    (mem : other ∈ names) (pass : passes other = true) : name ≤ other := by
  obtain ⟨-, front, back, rfl, misses⟩ := List.find?_eq_some_iff_append.mp found
  rcases List.mem_append.mp mem with mem | mem
  · simpa [pass] using misses other mem
  · rcases List.mem_cons.mp mem with rfl | mem
    · exact le_refl _
    · exact (List.pairwise_cons.mp (List.pairwise_append.mp sorted).2.1).1 other mem

/-- The entries that are below a location. -/
def below (d : Disk) (l : Location) : List (Location × Entry) :=
  d.entries.filter fun entry => l <+: entry.1 ∧ l ≠ entry.1

/-- Below something in a folder are fewer entries than below the folder. -/
theorem length_below_lt {e : Entry} (there : (l ++ [name], e) ∈ d.entries) :
    (d.below (l ++ [name])).length < (d.below l).length := by
  have part : d.below (l ++ [name]) =
      (d.below l).filter fun entry => l ++ [name] <+: entry.1 ∧ l ++ [name] ≠ entry.1 := by
    rw [below, below, List.filter_filter]
    refine List.filter_congr fun entry _ => ?_
    have lower (front : l ++ [name] <+: entry.1) : l <+: entry.1 ∧ l ≠ entry.1 := by
      refine ⟨(List.prefix_append l [name]).trans front, fun same => ?_⟩
      have longer := front.length_le
      simp [← same] at longer
    by_cases front : l ++ [name] <+: entry.1
    · simp [front, lower front]
    · simp [front]
  rw [part, List.length_filter_lt_length_iff_exists]
  exact ⟨_, List.mem_filter.mpr ⟨there, by simp⟩, by simp⟩

/-- Whether a path leads to a folder is not decided by slashes at its end. -/
theorem find_eq_folder_congr {p q : Path} (segments : p.segments = q.segments)
    (absolute : p.absolute = q.absolute) (found : d.find p = .ok (l, .folder)) :
    d.find q = .ok (l, .folder) := by
  have leads : d.resolve q = d.resolve p := by
    rw [resolve, resolve, Path.isEmpty, Path.isEmpty, segments, absolute]
  rw [find] at found ⊢
  rw [leads]
  split at found
  next => cases found
  next => exact found
  next l' there =>
    split at found
    next => cases found
    next folder => simpa [folder] using found
    next =>
      split at found
      next => cases found
      next => cases found

theorem exists_find_of_isFolder {p : Path} (there : d.isFolder p = true) :
    ∃ l, d.find p = .ok (l, .folder) := by
  rw [isFolder] at there
  split at there
  next l found => exact ⟨l, found⟩
  next => cases there

end Store.Disk

namespace AngularModule

open Store Store.Action Disk

variable {w : Workspace} {d d' : Disk} {part folder : String} {l : Location} {fuel : Nat}

/-! ### The chain -/

/-- The name is that of a folder in the folder, and the least one. -/
structure IsLeastFolder (d : Disk) (l : Location) (name : String) : Prop where
  there : d.entry? (l ++ [name]) = some .folder
  least : ∀ other, d.entry? (l ++ [other]) = some .folder → name ≤ other

/-- The names lead down the chain of folders that begins at a folder and goes on each time to the
folder of the least name. -/
def OnChain (d : Disk) : Location → List String → Prop
  | _, [] => True
  | l, name :: names => IsLeastFolder d l name ∧ OnChain d (l ++ [name]) names

/-- No file in the folder has the part in its name. -/
def Lacks (d : Disk) (part : String) (l : Location) : Prop :=
  ∀ name content, d.entry? (l ++ [name]) = some (.file content) → ¬ part.toList <:+: name.toList

/-- The name is that of a file in the folder, and the least one that has the part. -/
structure IsLeastFile (d : Disk) (part : String) (l : Location) (name : String) : Prop where
  there : ∃ content, d.entry? (l ++ [name]) = some (.file content)
  has : part.toList <:+: name.toList
  least : ∀ other content, d.entry? (l ++ [other]) = some (.file content) →
    part.toList <:+: other.toList → name ≤ other

/-- The path with names behind it. -/
def pathBelow (folder : String) (names : List String) : String :=
  names.foldl (fun path name => path ++ "/" ++ name) folder

/-- What a search answers that begins at a folder: the path of a file on the chain with nothing to be
found before it, or nothing if there is nothing on the chain. -/
def AnswersFrom (w : Workspace) (d : Disk) (part folder : String) (l : Location) :
    Option String → Prop
  | none => ∀ names, OnChain d l names → Lacks d part (l ++ names)
  | some path => ∃ names name content,
      path = pathBelow (String.ofList (Text.dropTrailing '/' folder.toList)) (names ++ [name]) ∧
      d.find (w.pathOf path) = .ok (l ++ names ++ [name], .file content) ∧
      OnChain d l names ∧ IsLeastFile d part (l ++ names) name ∧
      ∀ earlier, earlier <+: names → earlier ≠ names → Lacks d part (l ++ earlier)

theorem IsLeastFolder.unique {name name' : String} (h : IsLeastFolder d l name)
    (h' : IsLeastFolder d l name') : name = name' :=
  le_antisymm (h.least name' h'.there) (h'.least name h.there)

/-! ### One step -/

/-- The search looks at what is in the folder that its path leads to. -/
theorem on_searchUpTo_succ (found : d.find (w.pathOf folder) = .ok (l, .folder)) :
    (searchUpTo w part (fuel + 1) folder).on d =
      let shown := String.ofList (Text.dropTrailing '/' folder.toList)
      match (d.listingAt l).files.find? fun file => Text.hasPart part.toList file.toList with
      | some file => (.ok (some (shown ++ "/" ++ file)), d)
      | none =>
        match (d.listingAt l).folders with
        | [] => (.ok none, d)
        | first :: _ => (searchUpTo w part fuel (shown ++ "/" ++ first)).on d := by
  have found' := find_eq_folder_congr (w.segments_pathOf_dropTrailing folder).symm
    ((w.absolute_pathOf folder).trans (w.absolute_pathOf _).symm) found
  have listed := Workspace.list_eq_ok.mpr
    ⟨rfl, show d.listing _ = .ok (d.listingAt l) by rw [Disk.listing, found']⟩
  rw [searchUpTo]
  dsimp only
  rw [on_get_bind, Disk.isFolder, found']
  dsimp only
  rw [if_neg (by simp), on_bind, listed]
  dsimp only
  cases (d.listingAt l).files.find? fun file => Text.hasPart part.toList file.toList with
  | some file => rfl
  | none => cases (d.listingAt l).folders <;> rfl

/-- Without a folder there is nothing to search. -/
theorem on_searchUpTo_of_not_isFolder (absent : d.isFolder (w.pathOf folder) = false) :
    (searchUpTo w part fuel folder).on d = (.ok none, d) := by
  cases fuel with
  | zero => rfl
  | succ fuel =>
    rw [searchUpTo, on_get_bind, if_pos]
    · rfl
    · rw [Bool.not_eq_true', Bool.eq_false_iff]
      intro there
      obtain ⟨l, found⟩ := exists_find_of_isFolder there
      have found' := find_eq_folder_congr (w.segments_pathOf_dropTrailing folder)
        ((w.absolute_pathOf _).trans (w.absolute_pathOf folder).symm) found
      rw [isFolder, found'] at absent
      cases absent

/-- In a folder with a file to be found, the search takes the least one. -/
theorem isLeastFile_of_find? (tree : d.WellFormed) {name : String}
    (found : ((d.listingAt l).files.find? fun file => Text.hasPart part.toList file.toList) =
      some name) : IsLeastFile d part l name := by
  have in_folder {name : String} {content : Content} :
      d.entry? (l ++ [name]) = some (.file content) ↔ (l ++ [name], .file content) ∈ d.entries :=
    tree.entry?_eq_some_iff (by simp)
  obtain ⟨content, there⟩ := mem_files_listingAt.mp (List.mem_of_find?_eq_some found)
  have has := List.find?_some found
  refine ⟨⟨content, in_folder.mpr there⟩, Text.hasPart_iff.mp has, ?_⟩
  intro other content there has
  have mem := mem_files_listingAt.mpr ⟨content, in_folder.mp there⟩
  have passes : Text.hasPart part.toList other.toList = true := Text.hasPart_iff.mpr has
  exact le_of_find? (pairwise_files_listingAt d l) found mem passes

/-- In a folder where the search finds no file, there is none to be found. -/
theorem lacks_of_find? (tree : d.WellFormed)
    (missed : ((d.listingAt l).files.find? fun file => Text.hasPart part.toList file.toList) = none) :
    Lacks d part l := by
  intro name content there has
  have mem := mem_files_listingAt.mpr ⟨content, (tree.entry?_eq_some_iff (by simp)).mp there⟩
  have passes : Text.hasPart part.toList name.toList = true := Text.hasPart_iff.mpr has
  exact List.find?_eq_none.mp missed name mem passes

/-- The first folder that is listed is the next one of the chain. -/
theorem isLeastFolder_of_listingAt (tree : d.WellFormed) {first : String} {rest : List String}
    (listed : (d.listingAt l).folders = first :: rest) : IsLeastFolder d l first := by
  have in_folder {name : String} :
      d.entry? (l ++ [name]) = some .folder ↔ name ∈ (d.listingAt l).folders :=
    (tree.entry?_eq_some_iff (by simp)).trans mem_folders_listingAt.symm
  have sorted := pairwise_folders_listingAt d l
  rw [listed] at in_folder sorted
  refine ⟨in_folder.mpr List.mem_cons_self, fun other there => ?_⟩
  rcases List.mem_cons.mp (in_folder.mp there) with rfl | mem
  · exact le_refl _
  · exact (List.pairwise_cons.mp sorted).1 other mem

/-! ### The search -/

theorem dropTrailing_concat_name {front name : List Char} (ne : name ≠ []) (no_slash : '/' ∉ name) :
    Text.dropTrailing '/' (front ++ '/' :: name) = front ++ '/' :: name := by
  have last : (front ++ '/' :: name).getLast? = name.getLast? := by
    rw [List.getLast?_append_of_ne_nil _ (List.cons_ne_nil _ _), ← List.singleton_append,
      List.getLast?_append_of_ne_nil _ ne]
  refine List.rdropWhile_eq_self_iff.mpr fun some_char slash => ?_
  have slash' : name.getLast? = some '/' := by
    rw [← last, List.getLast?_eq_some_getLast some_char]
    simpa using slash
  exact no_slash (List.mem_of_getLast? slash')

/-- A chain goes on from the folder that it leads to. -/
theorem answersFrom_of_next {first : String} (tree : d.WellFormed)
    (lacks : Lacks d part l) (next : IsLeastFolder d l first) {answer : Option String}
    (later : AnswersFrom w d part
      (String.ofList (Text.dropTrailing '/' folder.toList) ++ "/" ++ first) (l ++ [first]) answer) :
    AnswersFrom w d part folder l answer := by
  have name := tree.names _ ((tree.entry?_eq_some_iff (by simp)).mp next.there) first (by simp)
  cases answer with
  | none =>
    intro names on
    cases names with
    | nil => simpa using lacks
    | cons other names =>
      obtain rfl := next.unique on.1
      simpa using later names on.2
  | some path =>
    obtain ⟨names, file, content, path_eq, found, on, least, earlier⟩ := later
    refine ⟨first :: names, file, content, ?_, by simpa using found, ⟨next, on⟩,
      by simpa using least, ?_⟩
    · have shown : (String.ofList (Text.dropTrailing '/' folder.toList) ++ "/" ++ first).toList =
          Text.dropTrailing '/' folder.toList ++ '/' :: first.toList := by
        simp
      rw [path_eq, shown, dropTrailing_concat_name name.ne name.no_slash, ← shown,
        String.ofList_toList]
      rfl
    · intro front is_front ne
      cases front with
      | nil => simpa using lacks
      | cons other front =>
        obtain ⟨rfl, is_front'⟩ := List.cons_prefix_cons.mp is_front
        simpa using earlier front is_front' fun same => ne (by rw [same])

/-- **The search along the chain** answers without a fault, if it may go as far as there are entries
below the folder that it begins at. -/
theorem answersFrom_of_searchUpTo (tree : d.WellFormed)
    (found : d.find (w.pathOf folder) = .ok (l, .folder)) (enough : (d.below l).length < fuel) :
    ∃ answer, (searchUpTo w part fuel folder).on d = (.ok answer, d) ∧
      AnswersFrom w d part folder l answer := by
  induction fuel generalizing folder l with
  | zero => exact absurd enough (Nat.not_lt_zero _)
  | succ fuel ih =>
    have found' := find_eq_folder_congr (w.segments_pathOf_dropTrailing folder).symm
      ((w.absolute_pathOf folder).trans (w.absolute_pathOf _).symm) found
    rw [on_searchUpTo_succ found]
    dsimp only
    split
    next file chosen =>
      obtain ⟨content, there⟩ := mem_files_listingAt.mp (List.mem_of_find?_eq_some chosen)
      refine ⟨_, rfl, [], file, content, rfl, ?_, trivial, ?_, ?_⟩
      · simpa using tree.find_file_in found' there
      · simpa using isLeastFile_of_find? tree chosen
      · intro earlier front ne
        exact absurd (List.prefix_nil.mp front) ne
    next missed =>
      have lacks := lacks_of_find? tree missed
      split
      next listed =>
        refine ⟨none, rfl, fun names on => ?_⟩
        cases names with
        | nil => simpa using lacks
        | cons name names =>
          have mem := mem_folders_listingAt.mpr ((tree.entry?_eq_some_iff (by simp)).mp on.1.there)
          rw [listed] at mem
          cases mem
      next first rest listed =>
        have next := isLeastFolder_of_listingAt tree listed
        have there := (tree.entry?_eq_some_iff (by simp)).mp next.there
        have fewer := length_below_lt there
        obtain ⟨answer, run, later⟩ := ih (tree.find_folder_in found' there) (by omega)
        exact ⟨answer, run, answersFrom_of_next tree lacks next later⟩

/-- **The order of the entries** does not decide what the search answers. -/
theorem on_searchUpTo_of_sameEntries (tree : d.WellFormed) (same : d.SameEntries d')
    (fuel : Nat) (folder : String) :
    ((searchUpTo w part fuel folder).on d').1 = ((searchUpTo w part fuel folder).on d).1 := by
  have find_eq := tree.find_eq_of_sameEntries same
  induction fuel generalizing folder with
  | zero => rfl
  | succ fuel ih =>
    cases there : d.isFolder (w.pathOf folder) with
    | false =>
      have there' : d'.isFolder (w.pathOf folder) = false := by
        rw [isFolder, find_eq]
        rwa [isFolder] at there
      rw [on_searchUpTo_of_not_isFolder there, on_searchUpTo_of_not_isFolder there']
    | true =>
      obtain ⟨l, found⟩ := exists_find_of_isFolder there
      rw [on_searchUpTo_succ found, on_searchUpTo_succ ((find_eq _).trans found),
        same.listingAt_eq l]
      dsimp only
      split
      next => rfl
      next =>
        split
        next => rfl
        next => exact ih _

/-- **The search for a module file.**  On a disk that is a tree it answers without a fault and
changes nothing, whatever the order of the entries.  It answers with nothing only if there is no
folder at the path, or no file of any folder on the chain has the part in its name.  A path that it
answers with is that of a file, whose name has the part and is the least such name in its folder, and
no folder before it on the chain has such a file. -/
theorem searchModule_eq_ok (tree : d.WellFormed) (w : Workspace) (folder part : String) :
    ∃ answer, (searchModule w folder part).on d = (.ok answer, d) ∧
      (∀ d', d.SameEntries d' → (searchModule w folder part).on d' = (.ok answer, d')) ∧
      (answer = none → d.isFolder (w.pathOf folder) = false ∨
        ∃ start, d.find (w.pathOf folder) = .ok (start, .folder) ∧
          ∀ names, OnChain d start names → Lacks d part (start ++ names)) ∧
      ∀ path, answer = some path → ∃ start names name content,
        d.find (w.pathOf folder) = .ok (start, .folder) ∧ OnChain d start names ∧
        path = pathBelow (String.ofList (Text.dropTrailing '/' folder.toList)) (names ++ [name]) ∧
        d.find (w.pathOf path) = .ok (start ++ names ++ [name], .file content) ∧
        (w.pathOf path).segments.getLast? = some name ∧
        IsLeastFile d part (start ++ names) name ∧
        ∀ earlier, earlier <+: names → earlier ≠ names → Lacks d part (start ++ earlier) := by
  have reordered {answer : Option String}
      (run : (searchModule w folder part).on d = (.ok answer, d)) (d' : Disk)
      (same : d.SameEntries d') : (searchModule w folder part).on d' = (.ok answer, d') := by
    have answer_eq : ((searchModule w folder part).on d').1 =
        ((searchModule w folder part).on d).1 := by
      rw [searchModule, on_get_bind, on_get_bind, same.entries.length_eq]
      exact on_searchUpTo_of_sameEntries tree same _ _
    rw [run] at answer_eq
    rw [eq_mk_of_fst_eq answer_eq, readsOnly_searchModule w folder part d']
  cases there : d.isFolder (w.pathOf folder) with
  | false =>
    have run : (searchModule w folder part).on d = (.ok none, d) := by
      rw [searchModule, on_get_bind, on_searchUpTo_of_not_isFolder there]
    exact ⟨none, run, reordered run, fun _ => .inl rfl, nofun⟩
  | true =>
    obtain ⟨start, found⟩ := exists_find_of_isFolder there
    -- the chain is no longer than the disk has entries, so that the fuel is enough
    have enough : (d.below start).length < d.entries.length + 2 :=
      Nat.lt_of_le_of_lt (List.length_filter_le _ _) (by omega)
    obtain ⟨answer, run, answers⟩ : ∃ answer,
        (searchUpTo w part (d.entries.length + 2) folder).on d = (.ok answer, d) ∧
          AnswersFrom w d part folder start answer := answersFrom_of_searchUpTo tree found enough
    have run' : (searchModule w folder part).on d = (.ok answer, d) := by
      rw [searchModule, on_get_bind, run]
    refine ⟨answer, run', reordered run', ?_, ?_⟩
    · rintro rfl
      exact .inr ⟨start, found, answers⟩
    · rintro path rfl
      obtain ⟨names, name, content, path_eq, there, on, least, earlier⟩ := answers
      have last := getLast?_of_resolve (find_eq_ok_file.mp there).1
      rw [List.getLast?_concat] at last
      exact ⟨start, names, name, content, found, on, path_eq, there, last.symm, least, earlier⟩

/-- Two folders below one, with their entries in no order. -/
def modulesDisk : Disk :=
  { here := []
    entries :=
      [(["s", "b", "m.ts"], .file (.text "")), (["s", "b"], .folder), (["s", "a"], .folder),
        (["s", "a", "z.m.ts"], .file (.text "")), (["s"], .folder), (["s", "n.ts"], .file (.text "")),
        (["s", "a", "m.ts"], .file (.text ""))] }

theorem wellFormed_modulesDisk : modulesDisk.WellFormed where
  once := by decide
  parent := by simp [modulesDisk, entry?]
  names := by
    simp only [modulesDisk, List.mem_cons, List.not_mem_nil, or_false]
    rintro entry (rfl | rfl | rfl | rfl | rfl | rfl | rfl) <;> decide +kernel

/-- The file of the least name in the folder of the least name, which is not the first one that the
disk has. -/
theorem searchModule_eq_ok_least :
    let w : Workspace := ⟨.ofString "/"⟩
    modulesDisk.WellFormed ∧
      (searchModule w "/s//" "m").on modulesDisk = (.ok (some "/s/a/m.ts"), modulesDisk) ∧
      ∃ names name, OnChain modulesDisk ["s"] names ∧ "/s/a/m.ts" = pathBelow "/s" (names ++ [name]) ∧
        IsLeastFile modulesDisk "m" (["s"] ++ names) name ∧
        ∀ earlier, earlier <+: names → earlier ≠ names → Lacks modulesDisk "m" (["s"] ++ earlier) := by
  intro w
  obtain ⟨answer, run, -, -, some_path⟩ := searchModule_eq_ok wellFormed_modulesDisk w "/s//" "m"
  have answer_eq : answer = some "/s/a/m.ts" := by
    have computed : ((searchModule w "/s//" "m").on modulesDisk).1.toOption = some (some "/s/a/m.ts") := by
      decide +kernel
    rw [run] at computed
    exact Option.some.inj computed
  subst answer_eq
  obtain ⟨start, names, name, content, found, on, path_eq, -, -, least, earlier⟩ :=
    some_path _ rfl
  have found' : modulesDisk.find (w.pathOf "/s//") = .ok (["s"], .folder) := rfl
  rw [found'] at found
  cases found
  exact ⟨wellFormed_modulesDisk, run, names, name, on, path_eq, least, earlier⟩

end AngularModule

end ModelGrid
