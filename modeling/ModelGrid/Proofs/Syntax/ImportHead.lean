import ModelGrid.Proofs.Syntax.Import

/-!
# Import lines at the top of a file

The tree of a file that begins with import lines begins with their statements, whatever follows the
lines (`ImportLine.children_parse`), and has no other imports if the word `import` does not follow.
The names and the paths are read off the text where their nodes are.

## Main definitions

* `Stretch.StandAt`: stretches are in a text, from a position on.
* `Specifier.bound`: the name that a name in braces goes by.

## Main results

* `ImportLine.children_parse`: the tree of a file that begins with import lines.
* `ImportLine.chars_source`, `Specifier.childOf?_node`, `Specifier.exists_constructs_node`: what the
  nodes cover.
-/

namespace ModelGrid.Syntax

open Lexeme Stretch

/-! ### Stretches in a text -/

namespace Stretch

/-- The stretches are in the text, from the position on. -/
def StandAt (stretches : List Stretch) (position : Nat) (cs : List Char) : Prop :=
  ∃ before behind, cs = before ++ text stretches ++ behind ∧ Text.size before = position

namespace StandAt

variable {front back : List Stretch} {position : Nat} {cs : List Char}

theorem left (stand : StandAt (front ++ back) position cs) : StandAt front position cs := by
  obtain ⟨before, behind, rfl, rfl⟩ := stand
  exact ⟨before, text back ++ behind, by simp, rfl⟩

theorem right (stand : StandAt (front ++ back) position cs) :
    StandAt back (position + Text.size (text front)) cs := by
  obtain ⟨before, behind, rfl, rfl⟩ := stand
  exact ⟨before ++ text front, behind, by simp, Text.size_append before (text front)⟩

theorem tail {stretch : Stretch} (stand : StandAt (stretch :: back) position cs) :
    StandAt back (position + Text.size stretch.chars) cs := by
  obtain ⟨before, behind, rfl, rfl⟩ := stand
  exact ⟨before ++ stretch.chars, behind, by simp, Text.size_append before stretch.chars⟩

/-- A lexeme is where it stands. -/
theorem slice_lexeme {kind : TokenKind} {word : List Char}
    (stand : StandAt (.lexeme kind word :: back) position cs) :
    Text.slice cs position (position + Text.size word) = word := by
  obtain ⟨before, behind, rfl, rfl⟩ := stand
  have whole : before ++ text (.lexeme kind word :: back) ++ behind =
      before ++ word ++ (text back ++ behind) := by
    simp [chars]
  rw [whole]
  exact Text.slice_append before word (text back ++ behind)

end StandAt

end Stretch

/-! ### Kinds of nodes -/

theorem Specifier.allKindsIn_nodesFrom (specifiers : List Specifier) (position : Nat) :
    Node.allKindsIn (· != .object) (nodesFrom position specifiers) = true := by
  induction specifiers generalizing position with
  | nil => rfl
  | cons s rest ih =>
    rw [nodesFrom, Node.allKindsIn_append, ih, nodes, node]
    cases s.renamed <;> cases s.comma <;> rfl

theorem Clause.allKindsIn_nodes (c : Clause) (position : Nat) :
    Node.allKindsIn (· != .object) (c.nodes position) = true := by
  cases c with
  | names list after =>
    have names := Specifier.allKindsIn_nodesFrom list.specifiers (list.opens position + 1)
    simp [nodes, NameList.node, names]
  | _ => rfl

theorem Subject.allKindsIn_nodes (s : Subject) (position : Nat) :
    Node.allKindsIn (· != .object) (s.nodes position) = true := by
  cases s with
  | nothing => rfl
  | values clause => exact clause.allKindsIn_nodes position
  | types before clause =>
    have inner := clause.allKindsIn_nodes (position + Text.size before.chars + 4)
    simp [nodes, inner]

/-- There is no object in a line. -/
theorem ImportLine.allKinds_node (l : ImportLine) (position : Nat) :
    (l.node position).allKinds (· != .object) = true := by
  have subject := l.subject.allKindsIn_nodes (l.subjectStart position)
  simp [node, nodesUpToPath, source, subject]

/-! ### Lines at the top of a file -/

namespace ImportLine

variable (l : ImportLine) (position : Nat) {lines : List ImportLine}

theorem map_placed (position : Nat) (lines : List ImportLine) :
    (placed position lines).map Prod.snd = lines := by
  induction lines generalizing position with
  | nil => rfl
  | cons l rest ih => rw [placed, List.map_cons, ih]

theorem exists_mem_placed {l : ImportLine} (mem : l ∈ lines) :
    ∃ line ∈ placed position lines, line.2 = l := by
  rw [← map_placed position lines] at mem
  exact List.mem_map.mp mem

theorem length_placed (position : Nat) (lines : List ImportLine) :
    (placed position lines).length = lines.length := by
  rw [← List.length_map Prod.snd, map_placed]

theorem firm_layout (lines : List ImportLine) : Firm (layout lines) := by
  induction lines with
  | nil => trivial
  | cons l rest ih => exact l.firm.append ih

theorem exists_token (l : ImportLine) (position : Nat) (afterBreak : Bool) :
    ∃ t tokens, tokensFrom position afterBreak l.stretches = t :: tokens ∧
      t.kind = .word (some .importWord) :=
  ⟨_, _, rfl, rfl⟩

theorem reads_layout (lines : List ImportLine) (n position : Nat) (afterBreak : Bool)
    (rest : List Token) :
    Phrase.Reads (Grammar.read (n + 1) .statement)
      (tokensFrom position afterBreak (layout lines) ++ rest) (nodes position lines) rest := by
  induction lines generalizing position afterBreak with
  | nil => exact .nil rest
  | cons l later ih =>
    obtain ⟨afterBreak', tokens⟩ :=
      tokensFrom_append position afterBreak l.stretches (layout later)
    have whole : tokensFrom position afterBreak (layout (l :: later)) =
        tokensFrom position afterBreak (l.stretches ++ layout later) := rfl
    rw [whole, tokens, List.append_assoc]
    refine .cons (l.read_statement n position afterBreak _) ?_ (ih _ afterBreak')
    obtain ⟨t, front, eq, -⟩ := l.exists_token position afterBreak
    simp only [eq, List.cons_append, List.length_cons, List.length_append]
    omega

theorem bounds_of_mem_nodes {n : Node} (mem : n ∈ nodes position lines) :
    position ≤ n.start ∧ n.start ≤ n.stop ∧
      n.stop ≤ position + Text.size (text (layout lines)) := by
  induction lines generalizing position with
  | nil => cases mem
  | cons l rest ih =>
    have size : Text.size (text (layout (l :: rest))) =
        Text.size (text l.stretches) + Text.size (text (layout rest)) := by
      simp [layout]
    rcases List.mem_cons.mp mem with rfl | mem
    · have front_le : Text.size l.front.chars ≤ Text.size (text l.stretches) := by
        simp [stretches, upToPath, opening, chars]
      dsimp only
      rw [start_node, stop_node]
      omega
    · have := ih _ mem
      omega

/-- **The tree of a file that begins with the lines** begins with their statements, and if the word
`import` is not behind them, there are no other imports. -/
theorem children_parse {text : String} {behind : List Char}
    (eq : text.toList = Stretch.text (layout lines) ++ behind) :
    ∃ others, (Document.parse text).root.children = nodes 0 lines ++ others ∧
      (LacksImport behind → ∀ n ∈ others, n.kind.isImport = false) := by
  cases lines with
  | nil =>
    refine ⟨_, rfl, fun lacks => ?_⟩
    obtain rfl : text.toList = behind := eq
    exact Document.isImport_of_lacksImport lacks
  | cons l rest =>
    obtain ⟨t, tokens, head, kind⟩ :
        ∃ t tokens, tokensFrom 0 false (layout (l :: rest)) = t :: tokens ∧
          t.kind = .word (some .importWord) := ⟨_, _, rfl, rfl⟩
    refine Document.children_parse_of_firm eq (firm_layout (l :: rest)) ?_ head (by simp [kind])
      (fun n later => head ▸ reads_layout (l :: rest) n 0 false later) ?_ ?_
    · rw [eq]
      refine interpreterLine_eq_none ?_
      cases spaces : l.front.chars with
      | nil => simp [layout, stretches, upToPath, opening, chars, spaces, Stretch.key]
      | cons c cs =>
        have space := l.front.space c (spaces ▸ List.mem_cons_self)
        simp only [layout, List.flatMap_cons, stretches, upToPath, opening, List.cons_append,
          text_cons, chars, spaces, List.head?_cons]
        rintro ⟨⟩
        revert space
        decide
    · intro n mem
      obtain ⟨line, -, rfl⟩ := List.mem_map.mp mem
      exact line.2.endsInSemicolon_node line.1
    · intro n mem
      have bounds := bounds_of_mem_nodes 0 mem
      omega

theorem placed_concat (position : Nat) (front : List ImportLine) (l : ImportLine) :
    placed position (front ++ [l]) =
      placed position front ++ [(position + Text.size (text (layout front)), l)] := by
  induction front generalizing position with
  | nil => rfl
  | cons k rest ih => simp [placed, layout, ih, Nat.add_assoc]

/-- A line begins behind those in front of it. -/
theorem eq_append_of_placed {before after : List (Nat × ImportLine)} {line : Nat × ImportLine}
    (eq : placed position lines = before ++ line :: after) :
    lines = before.map Prod.snd ++ line.2 :: after.map Prod.snd ∧
      line.1 = position + Text.size (text (layout (before.map Prod.snd))) := by
  induction before generalizing position lines with
  | nil =>
    cases lines with
    | nil => cases eq
    | cons l rest =>
      obtain ⟨rfl, rfl⟩ := List.cons.inj eq
      exact ⟨by rw [map_placed]; rfl, rfl⟩
  | cons first before ih =>
    cases lines with
    | nil => cases eq
    | cons l rest =>
      obtain ⟨rfl, later⟩ := List.cons.inj eq
      obtain ⟨lines_eq, begins⟩ := ih _ later
      exact ⟨congrArg (l :: ·) lines_eq, by simp [begins, layout, Nat.add_assoc]⟩

end ImportLine

/-! ### Parts of a line in a text -/

namespace ImportLine

variable {l : ImportLine} {position : Nat} {cs : List Char} {lines : List ImportLine}

/-- A line stands where it is placed. -/
theorem standAt_of_mem_placed {line : Nat × ImportLine} (mem : line ∈ placed position lines)
    (stand : StandAt (layout lines) position cs) : StandAt line.2.stretches line.1 cs := by
  induction lines generalizing position with
  | nil => cases mem
  | cons l rest ih =>
    rcases List.mem_cons.mp mem with rfl | mem
    · exact stand.left
    · exact ih mem stand.right

theorem standAt_subject (stand : StandAt l.stretches position cs) :
    StandAt l.subject.stretches (l.subjectStart position) cs := by
  have parts : l.stretches = l.opening ++ (l.subject.stretches ++
      ([Stretch.space l.beforePath.chars, .lexeme .string l.quotedPath] ++ l.ending)) := by
    simp [stretches, upToPath]
  rw [parts] at stand
  rw [subjectStart_eq]
  exact stand.right.left

/-- The path is between the quotes. -/
theorem chars_source (stand : StandAt l.stretches position cs) :
    (l.source position).chars cs = l.quotedPath := by
  have parts : l.stretches =
      (l.opening ++ l.subject.stretches ++ [Stretch.space l.beforePath.chars]) ++
        (Stretch.lexeme .string l.quotedPath :: l.ending) := by
    simp [stretches, upToPath]
  rw [parts] at stand
  have start : l.pathStart position = position + Text.size
      (text (l.opening ++ l.subject.stretches ++ [Stretch.space l.beforePath.chars])) := by
    rw [pathStart, subjectStart_eq]
    simp [chars]
    omega
  show Text.slice cs (l.pathStart position) (l.pathStart position + _) = _
  rw [start]
  exact stand.right.slice_lexeme

end ImportLine

namespace NameList

variable (l : NameList) (position : Nat)

/-- The list up to its first name. -/
def opening : List Stretch :=
  [.space l.before.chars, .mark .openBrace "\x7b"]

/-- The list behind its last name. -/
def ending : List Stretch :=
  [.space l.closing.chars, .mark .closeBrace "\x7d"]

theorem stretches_eq : l.stretches = l.opening ++ (Specifier.layout l.specifiers ++ l.ending) := by
  simp [stretches, opening, ending]

theorem opens_eq : l.opens position + 1 = position + Text.size (text l.opening) := by
  have brace : Text.size "\x7b".toList = 1 := rfl
  simp only [opening, text_cons, text_nil, chars, Stretch.mark, Text.size_append, Text.size_nil,
    brace, opens]
  omega

theorem standAt_layout {l : NameList} {cs : List Char} (stand : StandAt l.stretches position cs) :
    StandAt (Specifier.layout l.specifiers) (l.opens position + 1) cs := by
  rw [stretches_eq] at stand
  rw [opens_eq]
  exact stand.right.left

end NameList

namespace Specifier

variable {position : Nat} {cs : List Char} {specifiers : List Specifier}

theorem placed_concat (position : Nat) (front : List Specifier) (s : Specifier) :
    placed position (front ++ [s]) =
      placed position front ++
        [(position + Text.size (text (layout front)) + Text.size s.before.chars, s)] := by
  induction front generalizing position with
  | nil => rfl
  | cons k rest ih => simp [placed, layout, ih, Nat.add_assoc]

theorem map_placed (position : Nat) (specifiers : List Specifier) :
    (placed position specifiers).map Prod.snd = specifiers := by
  induction specifiers generalizing position with
  | nil => rfl
  | cons s rest ih => rw [placed, List.map_cons, ih]

theorem exists_mem_placed (position : Nat) {s : Specifier} (mem : s ∈ specifiers) :
    ∃ found ∈ placed position specifiers, found.2 = s := by
  rw [← map_placed position specifiers] at mem
  exact List.mem_map.mp mem

/-- A name stands where it is placed. -/
theorem standAt_of_mem_placed {s : Nat × Specifier} (mem : s ∈ placed position specifiers)
    (stand : StandAt (layout specifiers) position cs) :
    StandAt (.lexeme (.word (Keyword.ofChars? s.2.name)) s.2.name :: Alias.stretches s.2.renamed)
      s.1 cs := by
  induction specifiers generalizing position with
  | nil => cases mem
  | cons t rest ih =>
    rw [layout_cons] at stand
    rcases List.mem_cons.mp mem with rfl | mem
    · have parts : t.stretches = .space t.before.chars ::
          ((Stretch.lexeme (.word (Keyword.ofChars? t.name)) t.name :: Alias.stretches t.renamed) ++
            (Stretch.space t.after.chars :: if t.comma then [.mark .comma ","] else [])) := rfl
      have here := stand.left
      rw [parts] at here
      exact here.tail.left
    · exact ih mem stand.right

/-- Of the nodes in braces, the names are constructs, and the commas are not. -/
theorem constructs_nodesFrom (position : Nat) (specifiers : List Specifier) :
    (nodesFrom position specifiers).filter (fun n => n.kind.isNamed && !n.isExtra) =
      (placed position specifiers).map fun s => s.2.node s.1 := by
  induction specifiers generalizing position with
  | nil => rfl
  | cons s rest ih =>
    rw [nodesFrom, placed, List.filter_append, ih, nodes]
    cases s.comma <;> rfl

theorem stop_node (s : Specifier) (position : Nat) :
    (s.node position).stop =
      position + Text.size s.name + Text.size (text (Alias.stretches s.renamed)) := by
  cases renamed : s.renamed with
  | none =>
    rw [node, renamed]
    rfl
  | some a =>
    have two : Text.size "as".toList = 2 := rfl
    have stop : (s.node position).stop = position + Text.size s.name + Text.size a.before.chars + 2 +
        Text.size a.afterAs.chars + Text.size a.name.chars := by
      rw [node, renamed]
      rfl
    rw [stop]
    simp only [Alias.stretches, text_cons, text_nil, chars, Stretch.key, Text.size_append,
      Text.size_nil, two]
    omega

/-- The name that goes by here. -/
def bound (s : Specifier) : List Char :=
  s.renamed.elim s.name fun a => a.name.chars

/-- The name under which a name in braces goes by here is the last one in its node. -/
theorem exists_constructs_node {s : Nat × Specifier} (mem : s ∈ placed position specifiers)
    (stand : StandAt (layout specifiers) position cs) :
    ∃ last, (s.2.node s.1).constructs.getLast? = some last ∧ last.chars cs = s.2.bound := by
  have here := standAt_of_mem_placed mem stand
  obtain ⟨start, s⟩ := s
  dsimp only at here ⊢
  cases renamed : s.renamed with
  | none =>
    refine ⟨(Node.leaf .identifier start (start + Text.size s.name)).withField .name, ?_, ?_⟩
    · rw [node, renamed]
      rfl
    · rw [bound, renamed]
      exact here.slice_lexeme
  | some a =>
    let as := start + Text.size s.name + Text.size a.before.chars
    let own := as + 2 + Text.size a.afterAs.chars
    refine ⟨.leaf .identifier own (own + Text.size a.name.chars), ?_, ?_⟩
    · rw [node, renamed]
      rfl
    · rw [renamed] at here
      rw [bound, renamed]
      exact here.tail.tail.tail.tail.slice_lexeme

/-- The name that a name in braces has in its file. -/
theorem childOf?_node {s : Nat × Specifier} (mem : s ∈ placed position specifiers)
    (stand : StandAt (layout specifiers) position cs) :
    ((s.2.node s.1).childOf? .name).map (fun n => n.chars cs) = some s.2.name :=
  congrArg some (standAt_of_mem_placed mem stand).slice_lexeme

end Specifier

theorem NameList.constructs_node (l : NameList) (position : Nat) :
    (l.node position).constructs =
      (Specifier.placed (l.opens position + 1) l.specifiers).map fun s => s.2.node s.1 := by
  rw [← Specifier.constructs_nodesFrom]
  show List.filter _ (_ :: (Specifier.nodesFrom _ l.specifiers ++ [_])) = _
  rw [List.filter_cons_of_neg (by simp [Node.leaf, Node.kind, Node.label, Kind.isNamed, Kind.name?]),
    List.filter_append, List.filter_cons_of_neg
      (by simp [Node.leaf, Node.kind, Node.label, Kind.isNamed, Kind.name?]), List.filter_nil,
    List.append_nil]

end ModelGrid.Syntax
