import ModelGrid.Proofs.Component.Layout
import ModelGrid.Proofs.Component.Contribution
import ModelGrid.Proofs.Syntax.Value

/-!
# Rows

The statement that returns a row, laid out with the names open, and how the grammar reads it.  A row
ends without a semicolon, so that what follows it decides where it ends: this has to be on a new line,
and to begin another statement or close the block.

## Main definitions

* `Layout.rowField`, `Layout.rowLines`: the layout of a row.

## Main results

* `Layout.reads_rowField`: a field with its comma.
* `Layout.statementsIn_rows`: rows one after another are statements in the body of the mapping function.
-/

namespace ModelGrid.Syntax.Grammar

open Phrase Rules

variable {n : Nat} {s : Token} {tokens rest : List Token} {nodes : List Node}

/-! ### Values in a row -/

section Member

variable {x d m : Token} (object : x.kind = .word none) (dot : d.kind = .mark .dot)
  (member : m.isWord = true)

include object dot member

/-- A member of a named object is an operand. -/
theorem read_operand_member (n : Nat) (rest : List Token) (ends : EndsOperand s) :
    ∃ node, read (n + 2) .operand (x :: d :: m :: s :: rest) = some ([node], s :: rest) :=
  ⟨_, read_operand_of_extends object
    (.cons (operandSuffix_member _ _ dot member _) (by simp) (.nil _ _)) ends⟩

/-- A member of a named object is a value. -/
theorem read_assignment_member (n : Nat) (rest : List Token) (ends : EndsValue s) :
    ∃ node, read (n + 5) (.assignment true true) (x :: d :: m :: s :: rest) =
      some ([node], s :: rest) :=
  ⟨_, read_assignment_of_extends object (by simp [dot])
    (.cons (operandSuffix_member _ _ dot member _) (by simp) (.nil _ _)) ends⟩

end Member

/-- An entry with its comma. -/
theorem reads_entry {k c e : Token} (key : k.isWord = true) (colon : c.kind = .mark .colon)
    (one : ∃ value, read n (.assignment true true) tokens = some ([value], e :: rest))
    (comma : e.kind = .mark .comma) (less : rest.length < tokens.length) :
    ∃ nodes, Reads (first [mark .comma, (read n).objectEntry]) (k :: c :: tokens) nodes rest := by
  obtain ⟨value, one⟩ := one
  have entry := objectEntry_pair key colon one
  obtain ⟨keyword, kind⟩ := Token.isWord_iff.mp key
  have pair : Reads (first [mark .comma, (read n).objectEntry]) (k :: c :: tokens) [_] (e :: rest) :=
    .single (by simp only [first_cons, mark_cons, kind, entry]; rfl) (by simp; omega)
  exact ⟨_, pair.trans (reads_comma _ comma rest)⟩

section Entry

variable {k c x d m : Token} (key : k.isWord = true) (colon : c.kind = .mark .colon)
  (object : x.kind = .word none) (dot : d.kind = .mark .dot) (member : m.isWord = true)

include key colon object dot member

/-- An entry that is a member of an object. -/
theorem reads_entry_member (n : Nat) (rest : List Token) {e : Token} (comma : e.kind = .mark .comma) :
    ∃ nodes, Reads (first [mark .comma, (read (n + 5)).objectEntry])
      (k :: c :: x :: d :: m :: e :: rest) nodes rest :=
  reads_entry key colon (read_assignment_member object dot member n rest (.of_kind comma)) comma
    (by simp; omega)

/-- An entry that is the choice between a call, where there is the member, and a text. -/
theorem reads_entry_choice (n : Nat) (rest : List Token)
    {q f p x' d' m' a u a' v p' c' w e : Token} (question : q.kind = .mark .question)
    (callee : f.kind = .word none) (opens : p.kind = .mark .openParen)
    (object' : x'.kind = .word none) (dot' : d'.kind = .mark .dot) (member' : m'.isWord = true)
    (comma : a.kind = .mark .comma) (string : u.kind = .string) (comma' : a'.kind = .mark .comma)
    (string' : v.kind = .string) (closes : p'.kind = .mark .closeParen)
    (colon' : c'.kind = .mark .colon) (text : w.kind = .string) (ends : e.kind = .mark .comma) :
    ∃ nodes, Reads (first [mark .comma, (read (n + 10)).objectEntry])
      (k :: c :: x :: d :: m :: q :: f :: p :: x' :: d' :: m' :: a :: u :: a' :: v :: p' :: c' :: w ::
        e :: rest) nodes rest := by
  obtain ⟨left, read_left⟩ := read_operand_member object dot member (n + 5)
    (f :: p :: x' :: d' :: m' :: a :: u :: a' :: v :: p' :: c' :: w :: e :: rest)
    (.of_kind question)
  have begins := beginsOperand_of_name object
  have condition := read_binary_of_unary 0 true
    (read_unary_of_operand begins read_left (.of_kind question)) (.of_kind question)
  obtain ⟨one, read_one⟩ := read_assignment_member object' dot' member' n
    (u :: a' :: v :: p' :: c' :: w :: e :: rest) (.of_kind comma)
  have two := read_assignment_string n (v :: p' :: c' :: w :: e :: rest) string (.of_kind comma')
  have three := read_assignment_string n (c' :: w :: e :: rest) string' (.of_kind closes)
  have values :=
    ((reads_argument (by simp [object']) (by simp [object']) read_one (by simp)).trans
        (reads_comma _ comma _)).trans <|
    ((reads_argument (by simp [string]) (by simp [string]) two (by simp)).trans
        (reads_comma _ comma' _)).trans <|
    reads_argument (by simp [string']) (by simp [string']) three (by simp)
  have call := arguments_of_reads opens values closes
  have value := read_assignment_of_extends callee (by simp [opens])
    (.cons (operandSuffix_call _ opens call) (by simp) (.nil _ _)) (.of_kind colon')
  have other := read_assignment_string (n + 4) rest text (.of_kind ends)
  have choice := conditional_choice condition question value colon' other
  have no_arrow : d.kind ≠ .mark .arrow := by simp [dot]
  have one := read_assignment_of_conditional begins (arrowFunction_of_name object no_arrow) choice
    (.of_kind ends)
  exact reads_entry key colon ⟨_, one⟩ ends (by simp; omega)

end Entry

/-- The token begins a statement, or ends the block, on a new line. -/
def BeginsLine (t : Token) : Prop :=
  t.afterBreak = true ∧ (t.kind = .word (some .returnWord) ∨ t.kind = .mark .closeBrace)

/-- A `return` of an object, without a semicolon. -/
theorem read_return_object {r o b : Token} (return' : r.kind = .word (some .returnWord))
    (opens : o.kind = .mark .openBrace) (line : o.afterBreak = false)
    (entries : Reads (first [mark .comma, (read (n + 1)).objectEntry]) tokens nodes
      (b :: s :: rest))
    (closes : b.kind = .mark .closeBrace) (begins : BeginsLine s) :
    ∃ node, read (n + 7) .statement (r :: o :: tokens) = some ([node], s :: rest) := by
  obtain ⟨new_line, starts⟩ := begins
  have ends : EndsExpression s := by
    rcases starts with kind | kind
    · exact .inl kind
    · exact .of_kind kind
  have no_semicolon : s.kind ≠ .mark .semicolon := by
    rcases starts with kind | kind <;> simp [kind]
  have object := object_of_reads opens entries closes
  have value := read_assignment_of_object opens object ends.endsValue
  have expression := read_expression_of_assignment value ends
  exact ⟨_, read_return return' line expression (semicolon_of_line new_line no_semicolon rest)⟩

end ModelGrid.Syntax.Grammar

namespace ModelGrid.Component

open Syntax Grammar Stretch Model

namespace Layout

/-! ### The layout of a row -/

/-- The field of a property that is shown as it is. -/
def plainField (p : Property) : List Stretch :=
  [anyWord p.name, mark .colon ":", gap " ", word "dto", mark .dot ".", anyWord p.name,
   mark .comma ","]

/-- The field of a date. -/
def dateField (formatting : Formatting) (p : Property) : List Stretch :=
  [anyWord p.name, mark .colon ":", gap " ", word "dto", mark .dot ".", anyWord p.name, gap " ",
   mark .question "?", gap " ", word "formatDate", mark .openParen "(", word "dto", mark .dot ".",
   anyWord p.name, mark .comma ",", gap " ", quoted formatting.dateFormat, mark .comma ",", gap " ",
   quoted formatting.locale, mark .closeParen ")", gap " ", mark .colon ":", gap " ", quoted "",
   mark .comma ","]

/-- The field of a row. -/
def rowField (formatting : Formatting) (p : Property) : List Stretch :=
  if p.dataType = .dateTime then dateField formatting p else plainField p

/-- The fields of a row, each on a line. -/
def rowFields (formatting : Formatting) (ps : List Property) : List Stretch :=
  ps.flatMap fun p => gap "\n\t\t" :: rowField formatting p

/-- A row up to its opening brace. -/
def rowFront : List Stretch :=
  [gap "\n\t", key .returnWord "return", gap " ", mark .openBrace "\x7b"]

/-- The end of a row. -/
def rowBack : List Stretch := [gap "\n\t", mark .closeBrace "\x7d"]

/-- The statement that returns a row. -/
def rowLines (formatting : Formatting) (ps : List Property) : List Stretch :=
  rowFront ++ (rowFields formatting ps ++ rowBack)

variable {formatting : Formatting} {ps : List Property}

theorem text_rowField (formatting : Formatting) (p : Property) :
    text (rowField formatting p) = (Contribution.rowField formatting p).toList := by
  cases date : p.dataType <;>
    simp [rowField, plainField, dateField, Contribution.rowField, date, anyWord, Stretch.mark,
      Stretch.word, quoted, gap, chars]

theorem text_rowLines (formatting : Formatting) (ps : List Property) :
    text (rowLines formatting ps) = (Contribution.rowBlock formatting ps).toList := by
  have fields : text (rowFields formatting ps) =
      ps.flatMap fun p => '\n' :: ("\t\t".toList ++ (Contribution.rowField formatting p).toList) := by
    rw [rowFields, text, List.flatMap_assoc]
    exact List.flatMap_congr fun p _ => by
      rw [← text_rowField]
      simp [text, gap, chars]
  rw [Contribution.toList_rowBlock, Contribution.block, rowLines, text_append, text_append, fields]
  simp [rowFront, rowBack, key, Stretch.mark, gap, chars]

/-- A field with its comma is an entry, wherever it stands. -/
theorem reads_rowField (n : Nat) (formatting : Formatting) (p : Property) (position : Nat)
    (afterBreak : Bool) (rest : List Stretch) :
    ∃ nodes,
      Phrase.Reads (Phrase.first [Phrase.mark .comma, (read (n + 10)).objectEntry])
        (tokensFrom position afterBreak (rowField formatting p ++ rest)) nodes
        (tokensFrom (position + Text.size (text (rowField formatting p))) false rest) := by
  have cut (front : List Stretch) :=
    tokensFrom_append_lexeme position afterBreak front (.mark .comma) ",".toList rest
  unfold rowField
  split
  next =>
    have tokens := cut (dateField formatting p).dropLast
    change tokensFrom _ _ (dateField formatting p ++ rest) = _ at tokens
    rw [tokens]
    exact reads_entry_choice rfl rfl rfl rfl rfl n _ rfl rfl rfl rfl rfl rfl rfl rfl rfl rfl rfl rfl
      rfl rfl
  next =>
    have tokens := cut (plainField p).dropLast
    change tokensFrom _ _ (plainField p ++ rest) = _ at tokens
    rw [tokens]
    exact reads_entry_member rfl rfl rfl rfl rfl (n + 5) _ rfl

theorem exists_tokensFrom_rowFront (position : Nat) (rest : List Stretch) :
    ∃ r o,
      tokensFrom position false (rowFront ++ rest) =
          r :: o :: tokensFrom (position + Text.size (text rowFront)) false rest ∧
        r.kind = .word (some .returnWord) ∧ r.afterBreak = true ∧ o.kind = .mark .openBrace ∧
        o.afterBreak = false :=
  ⟨_, _,
    tokensFrom_append_lexeme position false rowFront.dropLast (.mark .openBrace) "\x7b".toList rest,
    rfl, rfl, rfl, rfl⟩

theorem exists_tokensFrom_rowBack (position : Nat) (rest : List Stretch) :
    ∃ b,
      tokensFrom position false (rowBack ++ rest) =
          b :: tokensFrom (position + Text.size (text rowBack)) false rest ∧
        b.kind = .mark .closeBrace :=
  ⟨_,
    tokensFrom_append_lexeme position false rowBack.dropLast (.mark .closeBrace) "\x7d".toList rest,
    rfl⟩

/-- The fields of a row are entries up to the brace that closes it. -/
theorem reads_rowFields (n : Nat) (formatting : Formatting) (ps : List Property) (position : Nat)
    (rest : List Stretch) :
    ∃ nodes b, b.kind = .mark .closeBrace ∧
      Phrase.Reads (Phrase.first [Phrase.mark .comma, (read (n + 10)).objectEntry])
        (tokensFrom position false (rowFields formatting ps ++ (rowBack ++ rest))) nodes
        (b :: tokensFrom (position + Text.size (text (rowFields formatting ps ++ rowBack))) false
          rest) := by
  induction ps generalizing position with
  | nil =>
    obtain ⟨b, tokens, closes⟩ := exists_tokensFrom_rowBack position rest
    refine ⟨[], b, closes, ?_⟩
    change Phrase.Reads _ (tokensFrom position false (rowBack ++ rest)) [] _
    rw [tokens]
    exact .nil _
  | cons p ps ih =>
    let behind := rowFields formatting ps ++ (rowBack ++ rest)
    have line : rowFields formatting (p :: ps) = gap "\n\t\t" :: rowField formatting p ++
        rowFields formatting ps := by
      simp [rowFields]
    obtain ⟨field, reads⟩ := reads_rowField n formatting p (position + Text.size "\n\t\t".toList)
      (false || "\n\t\t".toList.any isLineBreak) behind
    obtain ⟨nodes, b, closes, later⟩ := ih (position + Text.size "\n\t\t".toList +
      Text.size (text (rowField formatting p)))
    refine ⟨field ++ nodes, b, closes, ?_⟩
    have whole : Text.size (text (rowFields formatting (p :: ps) ++ rowBack)) =
        Text.size "\n\t\t".toList + Text.size (text (rowField formatting p)) +
          Text.size (text (rowFields formatting ps ++ rowBack)) := by
      rw [line, List.append_assoc, text_append, Text.size_append, text_cons, Text.size_append]
      rfl
    rw [whole, ← Nat.add_assoc, ← Nat.add_assoc, line, List.append_assoc]
    exact reads.trans later

/-- A row is a statement if another statement, or the end of the block, follows on a new line. -/
theorem reads_rowLines (n : Nat) (formatting : Formatting) (ps : List Property) (position : Nat)
    {rest : List Stretch} {s : Token} {later : List Token}
    (head : tokensFrom (position + Text.size (text (rowLines formatting ps))) false rest = s :: later)
    (begins : BeginsLine s) :
    ∃ nodes,
      Phrase.Reads (read (n + 16) .statement)
        (tokensFrom position false (rowLines formatting ps ++ rest)) nodes (s :: later) := by
  obtain ⟨r, o, tokens, return', -, opens, line⟩ :=
    exists_tokensFrom_rowFront position (rowFields formatting ps ++ (rowBack ++ rest))
  obtain ⟨nodes, b, closes, entries⟩ :=
    reads_rowFields n formatting ps (position + Text.size (text rowFront)) rest
  rw [rowLines, text_append, Text.size_append, ← Nat.add_assoc] at head
  rw [head] at entries
  rw [rowLines, List.append_assoc, List.append_assoc, tokens]
  obtain ⟨node, one⟩ := read_return_object return' opens line entries closes begins
  exact ⟨[node], .single one (by have := entries.length_le; simp at this ⊢; omega)⟩

/-- Rows one after another. -/
def rowRuns (formatting : Formatting) (ps : List Property) (k : Nat) : List Stretch :=
  (List.replicate k (rowLines formatting ps)).flatten

theorem rowRuns_succ (formatting : Formatting) (ps : List Property) (k : Nat) :
    rowRuns formatting ps (k + 1) = rowLines formatting ps ++ rowRuns formatting ps k := by
  rw [rowRuns, List.replicate_succ, List.flatten_cons, rowRuns]

/-- Behind the brace of the mapping function, and behind each row, a row begins or the block ends. -/
theorem exists_tokensFrom_rowRuns (formatting : Formatting) (ps : List Property) (k position : Nat) :
    ∃ s later, tokensFrom position false (rowRuns formatting ps k ++ constantsBack) = s :: later ∧
      BeginsLine s := by
  cases k with
  | zero => exact ⟨_, _, rfl, rfl, .inr rfl⟩
  | succ k =>
    obtain ⟨r, o, tokens, return', line, -⟩ := exists_tokensFrom_rowFront position
      (rowFields formatting ps ++ rowBack ++ (rowRuns formatting ps k ++ constantsBack))
    rw [rowRuns_succ, rowLines, List.append_assoc, List.append_assoc]
    exact ⟨r, _, tokens, line, .inl return'⟩

/-- **Rows one after another** are statements in the body of the mapping function. -/
theorem statementsIn_rowRuns (formatting : Formatting) (ps : List Property) (k position : Nat) :
    StatementsIn position (rowRuns formatting ps k) := by
  refine ⟨fun n => ?_, fun token later tokens => ?_⟩
  · induction k generalizing position with
    | zero => exact ⟨[], position, false, .nil _⟩
    | succ k ih =>
      let behind := position + Text.size (text (rowLines formatting ps))
      obtain ⟨s, later, head, begins⟩ := exists_tokensFrom_rowRuns formatting ps k behind
      obtain ⟨row, one⟩ := reads_rowLines (n + 2) formatting ps position head begins
      obtain ⟨nodes, last, afterBreak, more⟩ := ih behind
      rw [rowRuns_succ, List.append_assoc]
      exact ⟨row ++ nodes, last, afterBreak, one.trans (head ▸ more)⟩
  · obtain ⟨s, others, head, -, begins⟩ := exists_tokensFrom_rowRuns formatting ps k position
    obtain rfl : s = token := by
      rw [head] at tokens
      exact (List.cons.inj tokens).1
    rcases begins with kind | kind <;> simp [Token.isIdentifier, kind, Keyword.isReserved]

/-! ### Rows that scan -/

/-- The formatting may stand between quotes. -/
structure Plain (formatting : Formatting) : Prop where
  dateFormat : Lexeme.IsQuoted '\'' formatting.dateFormat.toList
  locale : Lexeme.IsQuoted '\'' formatting.locale.toList

theorem scans_rowField (plain : Plain formatting) {p : Property}
    (name : Lexeme.IsWord p.name.toList) {rest : List Stretch} (later : Scans rest) :
    Scans (rowField formatting p ++ rest) := by
  unfold rowField
  split
  all_goals
    simp only [dateField, plainField, List.cons_append, List.nil_append]
    repeat first
      | refine scans_gap (List.all_eq_true.mp (by decide)) ?_
      | refine scans_anyWord name (by decide) ?_
      | refine scans_shortMark (by decide) ?_
      | refine scans_dot name ?_
      | refine scans_word (by decide) (by decide +kernel) (by decide) ?_
      | refine scans_quoted plain.dateFormat ?_
      | refine scans_quoted plain.locale ?_
      | refine scans_quoted (by decide) ?_
      | refine scans_mark rfl (by decide) rfl ?_
    exact later

theorem scans_rowFields (plain : Plain formatting) (names : ∀ p ∈ ps, Lexeme.IsWord p.name.toList)
    {rest : List Stretch} (later : Scans rest) : Scans (rowFields formatting ps ++ rest) := by
  induction ps with
  | nil => exact later
  | cons p ps ih =>
    have others := ih fun q mem => names q (.tail _ mem)
    have field := scans_rowField plain (names p List.mem_cons_self) others
    rw [← List.append_assoc] at field
    exact scans_gap (List.all_eq_true.mp (by decide)) field

theorem scans_rowLines (plain : Plain formatting) (names : ∀ p ∈ ps, Lexeme.IsWord p.name.toList)
    {rest : List Stretch} (later : Scans rest) : Scans (rowLines formatting ps ++ rest) := by
  have back : Scans (rowBack ++ rest) :=
    scans_gap (List.all_eq_true.mp (by decide)) (scans_shortMark (by decide) later)
  have fields := scans_rowFields plain names back
  rw [rowLines, List.append_assoc, List.append_assoc]
  refine scans_gap (List.all_eq_true.mp (by decide)) ?_
  refine scans_key (by simp [Keyword.spellings]) (by decide) (by decide) ?_
  exact scans_gap (List.all_eq_true.mp (by decide)) (scans_shortMark (by decide) fields)

theorem scans_rowRuns (plain : Plain formatting) (names : ∀ p ∈ ps, Lexeme.IsWord p.name.toList)
    (k : Nat) : Scans (rowRuns formatting ps k ++ constantsBack) := by
  induction k with
  | zero => exact scans_constantsBack
  | succ k ih =>
    rw [rowRuns_succ, List.append_assoc]
    exact scans_rowLines plain names ih

end Layout

end ModelGrid.Component
