import ModelGrid.Syntax.Token.Scan
import Mathlib.Data.List.Basic

/-!
# Scanning a text that is laid out

A text is laid out as stretches: white space, and lexemes with their kinds.  This module says when
the scan of such a text gives back its lexemes, each with its range, and no comment.

The scan is a walk with a state, but outside templates only a slash asks for it.  So a lexeme that is
taken off the front of the text in every such state (`Takes`) can be judged by its own characters and
the one behind it, and the induction over the stretches carries nothing but that no template is open.

## Main definitions

* `Stretch`: white space or a lexeme.
* `Stretch.tokensFrom`: the tokens of stretches that begin at a position.
* `Takes`: a lexeme is scanned off the front of a text.
* `Stretch.Scans`: every lexeme is scanned off the text from it on.

## Main results

* `takes_word`, `takes_string`, `takes_mark`: lexemes that are taken.
* `scan_of_scans`: the tokens of a text that is laid out.
-/

namespace ModelGrid.Syntax

/-- White space or a lexeme of a text. -/
inductive Stretch
  | space (cs : List Char)
  | lexeme (kind : TokenKind) (cs : List Char)
  deriving DecidableEq, Repr

namespace Stretch

/-- The characters of a stretch. -/
def chars : Stretch → List Char
  | space cs => cs
  | lexeme _ cs => cs

/-- The text that stretches make up. -/
def text (stretches : List Stretch) : List Char :=
  stretches.flatMap chars

@[simp] theorem text_nil : text [] = [] := rfl

@[simp] theorem text_cons (stretch : Stretch) (rest : List Stretch) :
    text (stretch :: rest) = stretch.chars ++ text rest := rfl

@[simp] theorem text_append (front back : List Stretch) :
    text (front ++ back) = text front ++ text back := by
  simp [text]

/-- The tokens of the stretches from byte `position` on; `afterBreak` tells whether a line has ended
since the token before them. -/
def tokensFrom (position : Nat) (afterBreak : Bool) : List Stretch → List Token
  | [] => []
  | space cs :: rest =>
    tokensFrom (position + Text.size cs) (afterBreak || cs.any isLineBreak) rest
  | lexeme kind cs :: rest =>
    ⟨kind, position, position + Text.size cs, afterBreak⟩ ::
      tokensFrom (position + Text.size cs) false rest

end Stretch

/-! ### Lexemes at the front of a text -/

namespace Lexeme

/-- A word does not go on in the text. -/
def EndsWord (cs : List Char) : Prop :=
  ∀ c, cs.head? = some c → isIdentifierPart c = false ∧ c ≠ '\\'

/-- The characters of a word. -/
def IsWord (cs : List Char) : Prop :=
  (∃ c, cs.head? = some c ∧ c.isDigit = false) ∧ ∀ c ∈ cs, isIdentifierPart c = true

theorem not_isSpace_of_isIdentifierPart {c : Char} (h : isIdentifierPart c = true) :
    isSpace c = false := by
  simp only [isIdentifierPart, Bool.not_eq_true', Bool.or_eq_false_iff] at h
  exact h.1.2

theorem escape?_eq_none {c : Char} (h : c ≠ '\\') (cs : List Char) : escape? (c :: cs) = none := by
  unfold escape?
  split
  · next eq => exact absurd (List.cons.inj eq).1 h
  · next eq => exact absurd (List.cons.inj eq).1 h
  · rfl

theorem identifierTail_of_endsWord {cs : List Char} (h : EndsWord cs) (n : Nat) :
    identifierTail n cs = ([], cs) := by
  cases n with
  | zero => rfl
  | succ n =>
    cases cs with
    | nil => rfl
    | cons c cs =>
      obtain ⟨stop, plain⟩ := h c rfl
      rw [identifierTail, stop, escape?_eq_none plain]
      rfl

theorem identifierTail_append {cs rest : List Char} (part : ∀ c ∈ cs, isIdentifierPart c = true)
    (stop : EndsWord rest) {n : Nat} (enough : cs.length ≤ n) :
    identifierTail n (cs ++ rest) = (cs, rest) := by
  induction cs generalizing n with
  | nil => exact identifierTail_of_endsWord stop n
  | cons c cs ih =>
    obtain ⟨m, rfl⟩ : ∃ m, n = m + 1 := ⟨n - 1, by simp at enough; omega⟩
    have inner := ih (fun d mem => part d (by simp [mem])) (n := m) (by simpa using enough)
    rw [List.cons_append, identifierTail, part c (by simp), if_pos rfl, inner]
    rfl

theorem word_append {cs rest : List Char} (h : IsWord cs) (stop : EndsWord rest) :
    word (cs ++ rest) = some (cs, rest) := by
  obtain ⟨⟨c, first, no_digit⟩, part⟩ := h
  cases cs with
  | nil => cases first
  | cons d ds =>
    obtain rfl : d = c := by simpa using first
    have tail : identifierTail (d :: ds ++ rest).length (d :: ds ++ rest) = (d :: ds, rest) :=
      identifierTail_append part stop (by simp)
    rw [List.cons_append] at tail ⊢
    rw [word, no_digit, tail]
    rfl

theorem word_eq_none {c : Char} (stop : isIdentifierPart c = false) (plain : c ≠ '\\')
    (cs : List Char) : word (c :: cs) = none := by
  have tail : identifierTail (c :: cs).length (c :: cs) = ([], c :: cs) :=
    identifierTail_of_endsWord (fun d eq => by cases eq; exact ⟨stop, plain⟩) _
  rw [word, tail]
  simp

theorem number_eq_none {c : Char} (no_digit : c.isDigit = false) (no_dot : c ≠ '.')
    (cs : List Char) : number (c :: cs) = none := by
  unfold number
  split
  · next eq => rw [(List.cons.inj eq).1] at no_digit; cases no_digit
  · next eq => exact absurd (List.cons.inj eq).1 no_dot
  · next eq => rw [(List.cons.inj eq).1] at no_digit; simp [no_digit]
  · rfl

theorem quotedTail_cons {quote c : Char} (plain : c ≠ '\\') (cs : List Char) :
    quotedTail quote (c :: cs) =
      if c == quote then some ([c], cs)
      else if c == '\n' || c == '\r' then none
      else (quotedTail quote cs).map (Split.push c) := by
  rw [quotedTail.eq_def]
  split
  · next eq => cases eq
  · next eq => exact absurd (List.cons.inj eq).1 plain
  · next eq => exact absurd (List.cons.inj eq).1 plain
  · next eq => cases eq; rfl

/-- The characters between the quotes of a string that writes none of them out. -/
def IsQuoted (quote : Char) (body : List Char) : Prop :=
  ∀ c ∈ body, c ≠ quote ∧ c ≠ '\\' ∧ c ≠ '\n' ∧ c ≠ '\r'

theorem quotedTail_append {quote : Char} {body : List Char} (plain : IsQuoted quote body)
    (no_escape : quote ≠ '\\') (rest : List Char) :
    quotedTail quote (body ++ quote :: rest) = some (body ++ [quote], rest) := by
  induction body with
  | nil =>
    rw [List.nil_append, quotedTail_cons no_escape]
    simp
  | cons c cs ih =>
    obtain ⟨no_quote, no_escape', no_feed, no_return⟩ := plain c (by simp)
    rw [List.cons_append, quotedTail_cons no_escape', ih fun d mem => plain d (by simp [mem])]
    simp [no_quote, no_feed, no_return, Split.push]

theorem comment_eq_none {c : Char} (h : c ≠ '/') (cs : List Char) : comment (c :: cs) = none := by
  unfold comment
  split
  · next eq => exact absurd (List.cons.inj eq).1 h
  · next eq => exact absurd (List.cons.inj eq).1 h
  · rfl

theorem privateName_eq_none {c : Char} (h : c ≠ '#') (cs : List Char) :
    privateName (c :: cs) = none := by
  unfold privateName
  split
  · next eq => exact absurd (List.cons.inj eq).1 h
  · rfl

theorem interpreterLine_eq_none {cs : List Char} (h : cs.head? ≠ some '#') :
    interpreterLine cs = none := by
  unfold interpreterLine
  split
  · exact absurd rfl h
  · rfl

theorem regex_eq_none {c : Char} (h : c ≠ '/') (cs : List Char) : regex (c :: cs) = none := by
  unfold regex
  split
  · next eq => exact absurd (List.cons.inj eq).1 h
  · rfl

end Lexeme

open Lexeme

namespace Scanner

/-- No template is open. -/
def OutsideTemplates (s : Scanner) : Prop := .template ∉ s.brackets

theorem inTemplate_eq_false {s : Scanner} (h : s.OutsideTemplates) : s.inTemplate = false := by
  unfold OutsideTemplates at h
  rw [Scanner.inTemplate]
  cases eq : s.brackets with
  | nil => rfl
  | cons b bs =>
    rw [eq] at h
    simpa using fun same : b = .template => h (by simp [same])

theorem OutsideTemplates.tail {s : Scanner} (h : s.OutsideTemplates) :
    .template ∉ s.brackets.tail :=
  fun mem => h (List.mem_of_mem_tail mem)

/-- Only a backquote opens a template. -/
theorem OutsideTemplates.advance {s : Scanner} (h : s.OutsideTemplates) {kind : TokenKind}
    (other : kind ≠ .templateOpen) (afterBreak : Bool) :
    (s.advance kind afterBreak).OutsideTemplates := by
  have tail := h.tail
  unfold OutsideTemplates at h ⊢
  cases kind with
  | templateOpen => exact absurd rfl other
  | mark m =>
    cases m <;> simp only [Scanner.advance, List.mem_cons, not_or] <;>
      first
        | exact h
        | exact tail
        | exact ⟨by simp, h⟩
        | (refine ⟨?_, h⟩; split <;> simp)
  | templateClose => exact tail
  | substitutionOpen => simpa [Scanner.advance] using h
  | _ => exact h

end Scanner

/-- The lexeme is scanned off the front of the text outside templates. -/
structure Takes (kind : TokenKind) (cs rest : List Char) : Prop where
  no_template : kind ≠ .templateOpen
  no_space : ∀ c, cs.head? = some c → isSpace c = false
  not_empty : cs ≠ []
  no_comment : comment (cs ++ rest) = none
  token : ∀ s : Scanner, s.OutsideTemplates → s.plainToken (cs ++ rest) = some (kind, cs, rest)

theorem takes_word {cs rest : List Char} (h : IsWord cs) (stop : EndsWord rest) :
    Takes (.word (Keyword.ofChars? cs)) cs rest := by
  obtain ⟨c, first, no_digit⟩ := h.1
  obtain ⟨ds, rfl⟩ : ∃ ds, cs = c :: ds := by
    cases cs with
    | nil => cases first
    | cons d ds => cases first; exact ⟨ds, rfl⟩
  have part : isIdentifierPart c = true := h.2 c (by simp)
  refine ⟨nofun, ?_, nofun, comment_eq_none ?_ _, fun s _ => ?_⟩
  · intro d eq
    cases eq
    exact not_isSpace_of_isIdentifierPart part
  · rintro rfl
    revert part
    decide
  · have taken := word_append h stop
    rw [List.cons_append] at taken ⊢
    simp only [Scanner.plainToken, taken]

/-- A string in quotes. -/
theorem takes_string {quote : Char} {body : List Char} (is : quote = '\'' ∨ quote = '"')
    (plain : IsQuoted quote body) (rest : List Char) :
    Takes .string (quote :: body ++ [quote]) rest := by
  have begins : isIdentifierPart quote = false ∧ isSpace quote = false ∧ quote.isDigit = false ∧
      quote ≠ '\\' ∧ quote ≠ '.' ∧ quote ≠ '/' := by
    rcases is with rfl | rfl <;> decide
  obtain ⟨no_part, no_space, no_digit, no_escape, no_dot, no_slash⟩ := begins
  refine ⟨nofun, ?_, nofun, comment_eq_none no_slash _, fun s _ => ?_⟩
  · intro c eq
    cases eq
    exact no_space
  · have no_word : word (quote :: (body ++ quote :: rest)) = none := word_eq_none no_part no_escape _
    have no_number : number (quote :: (body ++ quote :: rest)) = none :=
      number_eq_none no_digit no_dot _
    have taken : quoted (quote :: (body ++ quote :: rest)) = some (quote :: body ++ [quote], rest) := by
      rw [quoted, quotedTail_append plain no_escape, if_pos (by simpa [or_comm] using is)]
      rfl
    simp only [List.cons_append, List.append_assoc, List.nil_append]
    simp only [Scanner.plainToken, no_word, no_number, taken, List.cons_append]

/-- The first character of a mark that begins no other lexeme. -/
def BeginsMark (c : Char) : Prop :=
  isIdentifierPart c = false ∧ isSpace c = false ∧ c.isDigit = false ∧
    c ∉ ['\\', '.', '"', '\'', '\x60', '#', '/']

instance : DecidablePred BeginsMark :=
  fun c => inferInstanceAs (Decidable (isIdentifierPart c = false ∧ isSpace c = false ∧
    c.isDigit = false ∧ c ∉ ['\\', '.', '"', '\'', '\x60', '#', '/']))

theorem takes_mark_of_no_number {m : Punctuator} {c : Char} {cs rest : List Char}
    (no_part : isIdentifierPart c = false) (no_space : isSpace c = false)
    (others : c ∉ ['\\', '"', '\'', '\x60', '#', '/']) (no_number : number (c :: (cs ++ rest)) = none)
    (mark : Lexeme.mark? (c :: cs ++ rest) = some (m, c :: cs, rest)) :
    Takes (.mark m) (c :: cs) rest := by
  simp only [List.mem_cons, List.not_mem_nil, or_false, not_or] at others
  obtain ⟨no_escape, no_double, no_single, no_backquote, no_hash, no_slash⟩ := others
  refine ⟨nofun, ?_, nofun, comment_eq_none no_slash _, fun s _ => ?_⟩
  · intro d eq
    cases eq
    exact no_space
  · have no_word := word_eq_none no_part no_escape (cs ++ rest)
    have no_string : quoted (c :: (cs ++ rest)) = none := by simp [quoted, no_double, no_single]
    have no_private := privateName_eq_none no_hash (cs ++ rest)
    have no_regex : (if s.afterOperand then none else regex (c :: (cs ++ rest))) = none := by
      rw [regex_eq_none no_slash]
      exact ite_self none
    rw [List.cons_append] at mark ⊢
    simp only [Scanner.plainToken, no_word, no_number, no_string, no_private, no_regex, mark]
    simp [no_backquote]

theorem takes_mark {m : Punctuator} {c : Char} {cs rest : List Char} (begins : BeginsMark c)
    (mark : Lexeme.mark? (c :: cs ++ rest) = some (m, c :: cs, rest)) :
    Takes (.mark m) (c :: cs) rest := by
  obtain ⟨no_part, no_space, no_digit, others⟩ := begins
  have no_dot : c ≠ '.' := by
    rintro rfl
    exact others (by decide)
  refine takes_mark_of_no_number no_part no_space (fun mem => others ?_)
    (number_eq_none no_digit no_dot _) mark
  simp only [List.mem_cons, List.not_mem_nil, or_false] at mem ⊢
  tauto

/-- A dot in front of neither a digit nor another dot. -/
theorem takes_dot {rest : List Char} (no_digit : rest.head?.any Char.isDigit = false)
    (single : rest.head? ≠ some '.') : Takes (.mark .dot) ['.'] rest := by
  have no_number : number ('.' :: rest) = none := by
    cases rest with
    | nil => rfl
    | cons d ds =>
      have other : d.isDigit = false := by simpa using no_digit
      simp [number, other]
  have mark : Lexeme.mark? ('.' :: rest) = some (.dot, ['.'], rest) := by
    cases rest with
    | nil => rfl
    | cons d ds =>
      have other : ('.' == d) = false := by
        rw [beq_eq_false_iff_ne]
        rintro rfl
        exact single rfl
      simp [Lexeme.mark?, firstMark?, Punctuator.spellings, literally, other, Split.push]
  exact takes_mark_of_no_number (by decide) (by decide) (by decide) no_number mark

/-- A star in front of neither another star nor an equals sign. -/
theorem takes_times {rest : List Char} (no_star : rest.head? ≠ some '*')
    (no_assign : rest.head? ≠ some '=') : Takes (.mark .times) ['*'] rest := by
  have mark : Lexeme.mark? ('*' :: rest) = some (.times, ['*'], rest) := by
    cases rest with
    | nil => rfl
    | cons d ds =>
      have other_star : ('*' == d) = false := by
        rw [beq_eq_false_iff_ne]
        rintro rfl
        exact no_star rfl
      have other_assign : ('=' == d) = false := by
        rw [beq_eq_false_iff_ne]
        rintro rfl
        exact no_assign rfl
      simp [Lexeme.mark?, firstMark?, Punctuator.spellings, literally, other_star, other_assign,
        Split.push]
  exact takes_mark (by decide) mark

/-! ### Texts that are laid out -/

namespace Stretch

/-- White space is white space, and every lexeme is scanned off the text from it on. -/
def Scans : List Stretch → Prop
  | [] => True
  | space cs :: rest => (∀ c ∈ cs, isSpace c = true) ∧ Scans rest
  | lexeme kind cs :: rest => Takes kind cs (text rest) ∧ Scans rest

theorem run_space {cs : List Char} (spaces : ∀ c ∈ cs, isSpace c = true) (rest : List Char)
    {s : Scanner} (outside : s.OutsideTemplates) {fuel : Nat} (enough : cs.length ≤ fuel)
    (position : Nat) (afterBreak : Bool) :
    s.run fuel position afterBreak (cs ++ rest) =
      s.run (fuel - cs.length) (position + Text.size cs) (afterBreak || cs.any isLineBreak) rest := by
  induction cs generalizing fuel position afterBreak with
  | nil => simp
  | cons c cs ih =>
    obtain ⟨n, rfl⟩ : ∃ n, fuel = n + 1 := ⟨fuel - 1, by simp at enough; omega⟩
    have enough' : cs.length ≤ n := by simpa using enough
    have inner := ih (fun d mem => spaces d (by simp [mem])) enough' (position + c.utf8Size)
      (afterBreak || isLineBreak c)
    rw [List.cons_append, Scanner.run]
    simp only [Scanner.inTemplate_eq_false outside, Bool.false_eq_true, if_false,
      spaces c (by simp), if_true]
    rw [inner]
    simp [Nat.add_assoc, Bool.or_assoc]

theorem run_lexeme {kind : TokenKind} {cs rest : List Char} (takes : Takes kind cs rest)
    {s : Scanner} (outside : s.OutsideTemplates) (fuel position : Nat) (afterBreak : Bool) :
    s.run (fuel + 1) position afterBreak (cs ++ rest) =
      let found := (s.advance kind afterBreak).run fuel (position + Text.size cs) false rest
      (⟨kind, position, position + Text.size cs, afterBreak⟩ :: found.1, found.2) := by
  have token := takes.token s outside
  have no_comment := takes.no_comment
  cases cs with
  | nil => exact absurd rfl takes.not_empty
  | cons c cs =>
    rw [List.cons_append] at token no_comment ⊢
    rw [Scanner.run]
    simp only [Scanner.inTemplate_eq_false outside, Bool.false_eq_true, if_false,
      takes.no_space c rfl, no_comment, token]
    rfl

/-- Of a text that is laid out, the scan finds the lexemes where they are. -/
theorem run_of_scans {stretches : List Stretch} (scans : Scans stretches) {s : Scanner}
    (outside : s.OutsideTemplates) {fuel : Nat} (enough : (text stretches).length ≤ fuel)
    (position : Nat) (afterBreak : Bool) :
    s.run fuel position afterBreak (text stretches) =
      (tokensFrom position afterBreak stretches, []) := by
  induction stretches generalizing s fuel position afterBreak with
  | nil => cases fuel <;> rfl
  | cons stretch rest ih =>
    cases stretch with
    | space cs =>
      obtain ⟨spaces, scans⟩ := scans
      rw [text_cons, chars, List.length_append] at enough
      rw [text_cons, chars, run_space spaces _ outside (by omega), ih scans outside (by omega)]
      rfl
    | lexeme kind cs =>
      obtain ⟨takes, scans⟩ := scans
      have pos : 0 < cs.length := List.length_pos_iff.mpr takes.not_empty
      rw [text_cons, chars, List.length_append] at enough
      obtain ⟨n, rfl⟩ : ∃ n, fuel = n + 1 := ⟨fuel - 1, by omega⟩
      rw [text_cons, chars, run_lexeme takes outside]
      rw [ih scans (outside.advance takes.no_template _) (by omega)]
      rfl

/-- **The tokens of a text that is laid out** are its lexemes; it has no comments. -/
theorem scan_of_scans {stretches : List Stretch} (scans : Scans stretches)
    (no_line : interpreterLine (text stretches) = none) :
    Token.scan (text stretches) = (tokensFrom 0 false stretches, []) := by
  have outside : ({} : Scanner).OutsideTemplates := List.not_mem_nil
  rw [Token.scan, no_line]
  exact run_of_scans scans outside (Nat.le_refl _) 0 false

end Stretch

end ModelGrid.Syntax
