import ModelGrid.Proofs.Syntax.GrammarKeeping
import ModelGrid.Proofs.Syntax.Place
import ModelGrid.Proofs.Syntax.Reading
import ModelGrid.Proofs.Syntax.Split
import Mathlib.Data.List.TakeDrop

/-!
# The head of a text

A text may begin with statements that are laid out, and go on with anything.  This module says that the
tree then begins with the nodes of these statements, each where its statement is, whatever follows.

Three things could spoil that.  The scan could join the end of the head to what follows; so the lexemes
of the head must be taken in front of every text (`Firm`).  The grammar could go on with the last
statement; so the nodes must be read in front of all tokens.  A comment that follows on the line could
be put into the last statement; so the statements must end in their semicolons (`EndsInSemicolon`).

What follows may have further imports at its top.  It has none where the word `import` is not in it,
since the grammar makes nodes of imports from this word only.

## Main definitions

* `Stretch.Firm`: every lexeme is scanned off the text from it on, whatever stands behind.
* `Node.EndsInSemicolon`: the last child is a semicolon.

## Main results

* `Stretch.scan_of_firm`: the tokens of a text with a head.
* `Document.isImport_of_lacksImport`: a text without the word `import` has no imports.
* `Document.children_parse_of_firm`: the tree of a text with a head.
-/

namespace ModelGrid.Syntax

open Lexeme

/-! ### The tokens of a head -/

namespace Stretch

/-- White space is white space, and every lexeme is scanned off the text from it on, whatever stands
behind the stretches. -/
def Firm : List Stretch → Prop
  | [] => True
  | space cs :: rest => (∀ c ∈ cs, isSpace c = true) ∧ Firm rest
  | lexeme kind cs :: rest => (∀ behind, Takes kind cs (text rest ++ behind)) ∧ Firm rest

theorem Firm.append {front back : List Stretch} (first : Firm front) (second : Firm back) :
    Firm (front ++ back) := by
  induction front with
  | nil => exact second
  | cons stretch rest ih =>
    cases stretch with
    | space cs => exact ⟨first.1, ih first.2⟩
    | lexeme kind cs =>
      refine ⟨fun behind => ?_, ih first.2⟩
      have later : text (rest ++ back) ++ behind = text rest ++ (text back ++ behind) := by
        rw [text_append, List.append_assoc]
      exact later ▸ first.1 _

section Stretches

variable {stretch : Stretch} {rest : List Stretch} {cs : List Char}

/-- No word goes on in white space. -/
theorem stopsWords_space (all : ∀ c ∈ cs, isSpace c = true) (some : cs ≠ [])
    (rest : List Stretch) : StopsWords (.space cs :: rest) := by
  obtain ⟨c, later, rfl⟩ := List.exists_cons_of_ne_nil some
  have space := all c List.mem_cons_self
  have no_part : isIdentifierPart c = false := by
    rw [Bool.eq_false_iff]
    intro part
    rw [not_isSpace_of_isIdentifierPart part] at space
    cases space
  have no_escape : c ≠ '\\' := by
    rintro rfl
    revert space
    decide
  exact stopsWords_cons (by simp [StopsWord, chars, no_part, no_escape]) rest

theorem StopsWords.space (all : ∀ c ∈ cs, isSpace c = true) (stops : StopsWords rest) :
    StopsWords (.space cs :: rest) := by
  by_cases empty : cs = []
  · rw [empty]
    exact stops
  · exact stopsWords_space all empty rest

theorem firm_key {keyword : Keyword} {spelling : String}
    (listed : (keyword, spelling) ∈ Keyword.spellings) (is : IsWord spelling.toList)
    (stops : StopsWords rest) (later : Firm rest) : Firm (key keyword spelling :: rest) :=
  ⟨fun behind => takes_key listed is (stops behind), later⟩

theorem firm_word (is : IsWord cs) (stops : StopsWords rest) (later : Firm rest) :
    Firm (.lexeme (.word (Keyword.ofChars? cs)) cs :: rest) :=
  ⟨fun behind => takes_word is (stops behind), later⟩

theorem firm_name (is : IsWord cs) (no_keyword : Keyword.ofChars? cs = none)
    (stops : StopsWords rest) (later : Firm rest) : Firm (.lexeme (.word none) cs :: rest) :=
  no_keyword ▸ firm_word is stops later

theorem firm_shortMark {m : Punctuator} {spelling : String} (short : (m, spelling) ∈ shortMarks)
    (later : Firm rest) : Firm (mark m spelling :: rest) :=
  ⟨fun behind => takes_shortMark short (text rest ++ behind), later⟩

/-- A star in front of white space is no part of a longer mark. -/
theorem firm_times (all : ∀ c ∈ cs, isSpace c = true) (some : cs ≠ [])
    (later : Firm (.space cs :: rest)) : Firm (mark .times "*" :: .space cs :: rest) := by
  refine ⟨fun behind => ?_, later⟩
  obtain ⟨c, more, rfl⟩ := List.exists_cons_of_ne_nil some
  have space := all c List.mem_cons_self
  refine takes_times ?_ ?_ <;> (rintro ⟨⟩; revert space; decide)

end Stretches

/-- In a text with a head, the scan first finds the lexemes of the head and then goes on behind it. -/
theorem run_of_firm {stretches : List Stretch} (firm : Firm stretches) {s : Scanner}
    (outside : s.OutsideTemplates) (behind : List Char) {fuel : Nat}
    (enough : (text stretches).length ≤ fuel) (position : Nat) (afterBreak : Bool) :
    ∃ (s' : Scanner) (fuel' : Nat) (afterBreak' : Bool),
      s.run fuel position afterBreak (text stretches ++ behind) =
        let found := s'.run fuel' (position + Text.size (text stretches)) afterBreak' behind
        (tokensFrom position afterBreak stretches ++ found.1, found.2) := by
  induction stretches generalizing s fuel position afterBreak with
  | nil => exact ⟨s, fuel, afterBreak, by simp [tokensFrom]⟩
  | cons stretch rest ih =>
    cases stretch with
    | space cs =>
      obtain ⟨spaces, firm⟩ := firm
      rw [text_cons, chars, List.length_append] at enough
      have enough' : (text rest).length ≤ fuel - cs.length := by omega
      obtain ⟨s', fuel', afterBreak', eq⟩ :=
        ih firm outside enough' (position + Text.size cs) (afterBreak || cs.any isLineBreak)
      refine ⟨s', fuel', afterBreak', ?_⟩
      rw [text_cons, chars, List.append_assoc, run_space spaces _ outside (by omega), eq]
      simp [tokensFrom, Nat.add_assoc]
    | lexeme kind cs =>
      obtain ⟨takes, firm⟩ := firm
      have takes := takes behind
      have pos : 0 < cs.length := List.length_pos_iff.mpr takes.not_empty
      rw [text_cons, chars, List.length_append] at enough
      obtain ⟨n, rfl⟩ : ∃ n, fuel = n + 1 := ⟨fuel - 1, by omega⟩
      have enough' : (text rest).length ≤ n := by omega
      obtain ⟨s', fuel', afterBreak', eq⟩ :=
        ih firm (outside.advance takes.no_template afterBreak) enough'
          (position + Text.size cs) false
      refine ⟨s', fuel', afterBreak', ?_⟩
      rw [text_cons, chars, List.append_assoc, run_lexeme takes outside, eq]
      simp [tokensFrom, Nat.add_assoc]

end Stretch

/-- A scan finds comments only where it has not been. -/
theorem Scanner.le_start_of_mem_run (s : Scanner) (fuel position : Nat) (afterBreak : Bool)
    (cs : List Char) : ∀ comment ∈ (s.run fuel position afterBreak cs).2, position ≤ comment.start := by
  induction fuel generalizing s position afterBreak cs with
  | zero => simp [run]
  | succ fuel ih =>
    cases cs with
    | nil => simp [run]
    | cons c cs =>
      intro comment mem
      have further (s' : Scanner) (width : Nat) (breaks : Bool) (rest : List Char)
          (mem : comment ∈ (s'.run fuel (position + width) breaks rest).2) :
          position ≤ comment.start :=
        Nat.le_trans (Nat.le_add_right _ _) (ih s' (position + width) breaks rest comment mem)
      rw [run] at mem
      dsimp only at mem
      split at mem
      next =>
        split at mem
        next => cases mem
        next => exact further _ _ _ _ mem
      next =>
        split at mem
        next => exact further _ _ _ _ mem
        next =>
          split at mem
          next =>
            rcases List.mem_cons.mp mem with rfl | mem
            · exact Nat.le_refl _
            · exact further _ _ _ _ mem
          next =>
            split at mem
            next => cases mem
            next => exact further _ _ _ _ mem

/-- What is found in a text with a head are the tokens of the head, and what a scan finds that goes on
behind it. -/
theorem Stretch.scan_of_firm {stretches : List Stretch} (firm : Firm stretches) (behind : List Char)
    (no_line : interpreterLine (text stretches ++ behind) = none) :
    ∃ (s : Scanner) (fuel : Nat) (afterBreak : Bool), Token.scan (text stretches ++ behind) =
      let found := s.run fuel (Text.size (text stretches)) afterBreak behind
      (tokensFrom 0 false stretches ++ found.1, found.2) := by
  have outside : ({} : Scanner).OutsideTemplates := List.not_mem_nil
  have enough : (text stretches).length ≤ (text stretches ++ behind).length := by simp
  obtain ⟨s, fuel, afterBreak, eq⟩ := run_of_firm firm outside behind enough 0 false
  rw [Nat.zero_add] at eq
  exact ⟨s, fuel, afterBreak, by rw [Token.scan, no_line]; exact eq⟩

/-! ### The comments behind a head -/

namespace Node

/-- The last child is a semicolon. -/
def EndsInSemicolon (n : Node) : Prop :=
  n.kind ≠ .statementBlock ∧ ∃ front start stop, n.children = front ++ [leaf .semicolon start stop]

theorem lastTakesTrailing_concat (mayEnd : Bool) (front : List Node) (last : Node) :
    lastTakesTrailing mayEnd (front ++ [last]) = last.takesTrailing mayEnd := by
  induction front with
  | nil => rfl
  | cons child rest ih =>
    cases rest with
    | nil => rfl
    | cons next rest => exact ih

/-- No comment goes into a node behind its semicolon. -/
theorem EndsInSemicolon.takesTrailing_eq {n : Node} (ends : n.EndsInSemicolon) (mayEnd : Bool) :
    n.takesTrailing mayEnd = false := by
  obtain ⟨no_block, front, start, stop, eq⟩ := ends
  obtain ⟨label, children⟩ := n
  obtain rfl : children = front ++ [leaf .semicolon start stop] := eq
  have no_block' : (label.kind == .statementBlock) = false := beq_eq_false_iff_ne.mpr no_block
  have last : (leaf .semicolon start stop).takesTrailing mayEnd = false := rfl
  rw [takesTrailing, lastTakesTrailing_concat, last, no_block', List.getLast?_concat]
  simp [leaf, Node.kind, Node.label]

theorem EndsInSemicolon.trailingCount_eq {n : Node} (ends : n.EndsInSemicolon) (text : List Char)
    (comments : List Comment) (next : Option Node) : n.trailingCount text comments next = 0 := by
  rw [trailingCount]
  dsimp only
  split
  next => rfl
  next => rw [ends.takesTrailing_eq, if_neg Bool.false_ne_true]

/-- **Comments behind the head** leave its statements as they are. -/
theorem addCommentsIn_append {front : List Node} {comments : List Comment} {bound : Nat}
    (text : List Char) (ends : ∀ n ∈ front, n.EndsInSemicolon)
    (within : ∀ n ∈ front, n.start ≤ bound ∧ n.stop ≤ bound)
    (behind : ∀ comment ∈ comments, bound ≤ comment.start) (back : List Node) :
    addCommentsIn text comments (front ++ back) = front ++ addCommentsIn text comments back := by
  induction front with
  | nil => rfl
  | cons child rest ih =>
    obtain ⟨child_ends, ends⟩ := List.forall_mem_cons.mp ends
    obtain ⟨⟨start_le, stop_le⟩, within⟩ := List.forall_mem_cons.mp within
    have no_earlier {offset : Nat} (le : offset ≤ bound) :
        comments.span (fun comment => decide (comment.start < offset)) = ([], comments) := by
      cases comments with
      | nil => rfl
      | cons comment later =>
        have := behind comment List.mem_cons_self
        have no : decide (comment.start < offset) = false := decide_eq_false (by omega)
        rw [List.span_eq_takeWhile_dropWhile, List.takeWhile_cons, List.dropWhile_cons, no]
        rfl
    rw [List.cons_append, addCommentsIn, no_earlier start_le]
    dsimp only
    rw [no_earlier stop_le]
    dsimp only
    rw [child_ends.trailingCount_eq, List.take_zero, List.drop_zero, List.append_nil,
      addComments_nil, ih ends within]
    rfl

end Node

theorem Document.children_parse (text : String) :
    (parse text).root.children =
      Node.addCommentsIn text.toList (Token.scan text.toList).2
        (Grammar.program (Token.scan text.toList).1).children := by
  rw [parse]
  obtain ⟨tokens, comments⟩ := Token.scan text.toList
  dsimp only
  cases Grammar.program tokens
  rfl

/-! ### No imports behind a head -/

/-- Of tokens other than the word `import`, no import is made. -/
theorem builds_no_import :
    Builds (fun t => t.kind ≠ .word (some .importWord)) (fun n => n.kind.isImport = false) where
  leaf _ _ other _ := other
  stray _ _ := rfl
  sign _ _ _ _ := rfl
  absent _ _ := rfl
  branch _ _ other _ := other
  withField _ n other := by cases n; exact other
  asError n _ := by cases n; rfl
  asPattern n other := by
    obtain ⟨label, children⟩ := n
    rw [Node.asPattern]
    split <;> first
      | rfl
      | exact other

theorem buildsImports_no_import :
    BuildsImports (fun t => t.kind ≠ .word (some .importWord)) (fun n => n.kind.isImport = false) where
  importStatement r _ left := by
    refine ⟨fun _ tokens nodes rest ok read => ?_⟩
    cases tokens with
    | nil => cases read
    | cons t tokens =>
      have other := (List.forall_mem_cons.mp ok).1
      simp [Rules.importStatement, other] at read

/-- Comments that are put between nodes are no imports. -/
theorem Node.isImport_of_mem_addCommentsIn (text : List Char) (comments : List Comment)
    {nodes : List Node} (others : ∀ n ∈ nodes, n.kind.isImport = false) :
    ∀ n ∈ addCommentsIn text comments nodes, n.kind.isImport = false := by
  induction nodes generalizing comments with
  | nil => exact List.forall_mem_map.mpr fun _ _ => rfl
  | cons child rest ih =>
    obtain ⟨other, others⟩ := List.forall_mem_cons.mp others
    rw [addCommentsIn]
    refine List.forall_mem_append.mpr ⟨List.forall_mem_map.mpr fun _ _ => rfl,
      List.forall_mem_cons.mpr ⟨?_, ih _ others⟩⟩
    obtain ⟨label, children⟩ := child
    exact other

/-- Without the word `import` there are no imports. -/
theorem Document.isImport_of_lacksImport {text : String} (lacks : LacksImport text.toList) :
    ∀ n ∈ (parse text).root.children, n.kind.isImport = false := by
  have builds := builds_no_import
  have buildsImports := buildsImports_no_import
  rw [children_parse]
  exact Node.isImport_of_mem_addCommentsIn _ _ (Grammar.forall_mem_children_program fun t mem =>
    ((Token.isOf_scan text.toList).1 t mem).ne_import lacks)

/-- **The tree of a text with a head** begins with the statements of the head, and if the word
`import` is not behind it, there are no other imports. -/
theorem Document.children_parse_of_firm {text : String} {stretches : List Stretch}
    {behind : List Char} {t : Token} {tokens : List Token} {nodes : List Node}
    (eq : text.toList = Stretch.text stretches ++ behind) (firm : Stretch.Firm stretches)
    (no_line : interpreterLine text.toList = none)
    (head : Stretch.tokensFrom 0 false stretches = t :: tokens)
    (no_line' : t.kind ≠ .interpreterLine)
    (reads : ∀ n later,
      Phrase.Reads (Grammar.read (n + 1) .statement) (t :: tokens ++ later) nodes later)
    (ends : ∀ n ∈ nodes, n.EndsInSemicolon)
    (within : ∀ n ∈ nodes, n.start ≤ Text.size (Stretch.text stretches) ∧
      n.stop ≤ Text.size (Stretch.text stretches)) :
    ∃ others, (parse text).root.children = nodes ++ others ∧
      (LacksImport behind → ∀ n ∈ others, n.kind.isImport = false) := by
  rw [eq] at no_line
  obtain ⟨s, fuel, afterBreak, scan⟩ := Stretch.scan_of_firm firm behind no_line
  rw [← eq, head] at scan
  let found := s.run fuel (Text.size (Stretch.text stretches)) afterBreak behind
  obtain ⟨others, program, fuel', after, read⟩ :=
    Grammar.program_of_reads (fun n => reads n found.1) no_line'
  refine ⟨Node.addCommentsIn text.toList found.2 others, ?_, fun lacks => ?_⟩
  · rw [children_parse, scan]
    dsimp only
    rw [← Node.addCommentsIn_append _ ends within (s.le_start_of_mem_run fuel _ afterBreak behind)]
    exact congrArg (fun tree => Node.addCommentsIn text.toList found.2 tree.children) program
  · have builds := builds_no_import
    have buildsImports := buildsImports_no_import
    have whole : ¬ Cuts [] behind := nofun
    have tokens_other : ∀ t ∈ found.1, t.kind ≠ .word (some .importWord) := fun t mem =>
      ((s.isOf_run fuel afterBreak whole rfl).1 t mem).ne_import lacks
    exact Node.isImport_of_mem_addCommentsIn _ _ ((Grammar.keeps_many_statements fuel' []).keeps
      (List.forall_mem_nil _) _ _ _ tokens_other read).1

end ModelGrid.Syntax
