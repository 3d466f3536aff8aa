import ModelGrid.Proofs.Naming
import ModelGrid.Proofs.Syntax.Scan
import Mathlib.Data.List.Forall2

/-!
# Layouts

A text is laid out as keywords, words, marks, strings and the white space between them.  Whether a
layout scans is decided lexeme by lexeme: a word needs only the stretch behind it to begin with
something else, and most marks need nothing, since no longer mark begins with them.

What the grammar makes of a layout depends on the shapes of its tokens only, and the shapes do not
depend on what words and strings say.

## Main definitions

* `Stretch.key`, `Stretch.word`, `Stretch.mark`, `Stretch.quoted`, `Stretch.gap`: the stretches.
* `Token.shape`: what a token is, apart from where it is.

## Main results

* `Stretch.scans_key`, `Stretch.scans_name`, `Stretch.scans_mark`, `Stretch.scans_quoted`,
  `Stretch.scans_gap`: a layout scans if it does behind its first stretch.
* `Stretch.stop_nth`: where a token ends.
-/

namespace ModelGrid

/-- The part of a text between two others. -/
theorem Text.slice_append (front cs back : List Char) :
    slice (front ++ cs ++ back) (size front) (size front + size cs) = cs := by
  rw [List.append_assoc, slice, splitAt?_size_append]
  simp only [Nat.add_sub_cancel_left, splitAt?_size_append]
  rfl

namespace Syntax

open Lexeme

/-! ### Words -/

namespace Keyword

theorem isLower_of_mem_spellings :
    ∀ entry ∈ spellings, ∀ c ∈ entry.2.toList, c.isLower = true := by
  have all : (spellings.all fun entry => entry.2.toList.all Char.isLower) = true := by decide +kernel
  intro entry listed c mem
  exact List.all_eq_true.mp (List.all_eq_true.mp all entry listed) c mem

/-- A word that is not in lower case is no keyword. -/
theorem ofChars?_eq_none {cs : List Char} {c : Char} (mem : c ∈ cs) (other : c.isLower = false) :
    ofChars? cs = none := by
  rw [ofChars?, Option.map_eq_none_iff, List.find?_eq_none]
  intro entry listed same
  rw [← beq_iff_eq.mp same] at mem
  rw [isLower_of_mem_spellings entry listed c mem] at other
  cases other

/-- Every keyword is known by its spelling. -/
theorem ofChars?_of_mem_spellings :
    ∀ entry ∈ spellings, ofChars? entry.2.toList = some entry.1 := by
  decide +kernel

end Keyword

namespace Lexeme

instance (cs : List Char) : Decidable (IsWord cs) :=
  decidable_of_iff (cs.head?.map Char.isDigit = some false ∧ cs.all isIdentifierPart = true)
    (by rw [Option.map_eq_some_iff, List.all_eq_true]; rfl)

instance (quote : Char) (body : List Char) : Decidable (IsQuoted quote body) :=
  decidable_of_iff ((body.all fun c => decide (c ≠ quote ∧ c ≠ '\\' ∧ c ≠ '\n' ∧ c ≠ '\r')) = true)
    (by simp only [List.all_eq_true, decide_eq_true_eq]; rfl)

theorem isIdentifierPart_cases :
    ∀ n < 0x7F, (Char.ofNat n).isAlphanum = true → isIdentifierPart (Char.ofNat n) = true := by
  decide +kernel

/-- ASCII letters, digits and underscores are parts of identifiers. -/
theorem isIdentifierPart_of_isAlphanum {c : Char} (h : c.isAlphanum = true ∨ c = '_') :
    isIdentifierPart c = true := by
  rcases h with alphanumeric | rfl
  · have small : c.toNat < 0x7F := (Naming.isPrintable_of_isNameChar (.inl alphanumeric)).2
    simpa using isIdentifierPart_cases c.toNat small (by simpa using alphanumeric)
  · decide

/-- Letters, digits and hyphens may stand between quotes. -/
theorem isQuoted_of_isDashed {cs : List Char} (dashed : Naming.IsDashed cs) : IsQuoted '\'' cs := by
  intro c mem
  rcases dashed c mem with alphanumeric | rfl
  · refine ⟨?_, ?_, ?_, ?_⟩ <;>
      (rintro rfl; revert alphanumeric; decide)
  · decide

/-- A capitalized name with letters and digits around it is a word that is not in lower case. -/
theorem isWord_around (front back : List Char) {name : List Char}
    (capitalized : Naming.IsCapitalized name) (front_plain : ∀ c ∈ front, c.isAlpha = true)
    (back_plain : ∀ c ∈ back, c.isAlphanum = true) :
    IsWord (front ++ name ++ back) ∧ ∃ c ∈ front ++ name ++ back, c.isLower = false := by
  obtain ⟨first, others, rfl, capital, plain⟩ := capitalized
  have letter : first.isAlpha = true := Naming.isAlpha_of_isUpper capital
  have range := Naming.isUpper_iff.mp capital
  have all : ∀ c ∈ front ++ first :: others ++ back, c.isAlphanum = true ∨ c = '_' := by
    intro c mem
    simp only [List.mem_append, List.mem_cons] at mem
    rcases mem with (mem | rfl | mem) | mem
    · exact .inl (by simp [Char.isAlphanum, front_plain c mem])
    · exact .inl (by simp [Char.isAlphanum, letter])
    · exact plain c mem
    · exact .inl (back_plain c mem)
  refine ⟨⟨?_, fun c mem => isIdentifierPart_of_isAlphanum (all c mem)⟩, first, by simp, ?_⟩
  · cases front with
    | nil => exact ⟨first, rfl, Naming.isDigit_of_isAlpha letter⟩
    | cons c cs => exact ⟨c, rfl, Naming.isDigit_of_isAlpha (front_plain c (by simp))⟩
  · rw [Bool.eq_false_iff]
    intro lower
    have := Naming.isLower_iff.mp lower
    omega

theorem isWord_of_isFieldName {name : String} (h : Naming.IsFieldName name) : IsWord name.toList := by
  obtain ⟨c, cs, eq, lower, plain⟩ := h
  have letter : c.isAlpha = true := Bool.or_eq_true_iff.mpr (.inr lower)
  rw [eq]
  refine ⟨⟨c, rfl, Naming.isDigit_of_isAlpha letter⟩, fun d mem => isIdentifierPart_of_isAlphanum ?_⟩
  rcases List.mem_cons.mp mem with rfl | mem
  · exact .inl (by simp [Char.isAlphanum, letter])
  · exact plain d mem

/-- A word may stand between quotes. -/
theorem isQuoted_of_isWord {cs : List Char} (is : IsWord cs) : IsQuoted '\'' cs := by
  intro c mem
  have part := is.2 c mem
  refine ⟨?_, ?_, ?_, ?_⟩ <;>
    (rintro rfl; revert part; decide)

end Lexeme

namespace Stretch

/-! ### Stretches -/

/-- A keyword. -/
def key (keyword : Keyword) (spelling : String) : Stretch :=
  .lexeme (.word (some keyword)) spelling.toList

/-- A word that is no keyword. -/
def word (spelling : String) : Stretch := .lexeme (.word none) spelling.toList

/-- A word, whether it is a keyword or not. -/
def anyWord (spelling : String) : Stretch :=
  .lexeme (.word (Keyword.ofChars? spelling.toList)) spelling.toList

/-- A mark. -/
def mark (mark : Punctuator) (spelling : String) : Stretch := .lexeme (.mark mark) spelling.toList

/-- A string in single quotes. -/
def quoted (body : String) : Stretch := .lexeme .string ("'" ++ body ++ "'").toList

/-- White space. -/
def gap (spaces : String) : Stretch := .space spaces.toList

/-- No word goes on in the stretch. -/
def StopsWord (stretch : Stretch) : Prop :=
  stretch.chars.head?.any (fun c => !isIdentifierPart c && c != '\\') = true

instance (stretch : Stretch) : Decidable stretch.StopsWord :=
  inferInstanceAs (Decidable (_ = true))

/-- No word goes on in the stretches, whatever stands behind them. -/
def StopsWords (stretches : List Stretch) : Prop :=
  ∀ behind, EndsWord (text stretches ++ behind)

theorem stopsWords_cons {stretch : Stretch} (stops : stretch.StopsWord) (rest : List Stretch) :
    StopsWords (stretch :: rest) := by
  intro behind
  unfold StopsWord at stops
  cases eq : stretch.chars with
  | nil =>
    rw [eq] at stops
    cases stops
  | cons c cs =>
    rw [eq] at stops
    intro d first
    obtain rfl : c = d := by simpa [eq] using first
    simpa using stops

theorem endsWord_text {stretch : Stretch} (stops : stretch.StopsWord) (rest : List Stretch) :
    EndsWord (text (stretch :: rest)) := by
  have ends := stopsWords_cons stops rest []
  rwa [List.append_nil] at ends

/-! ### Layouts that scan -/

variable {stretch : Stretch} {rest : List Stretch}

theorem scans_gap {spaces : String} (all : ∀ c ∈ spaces.toList, isSpace c = true)
    (later : Scans rest) : Scans (gap spaces :: rest) :=
  ⟨all, later⟩

theorem takes_key {keyword : Keyword} {spelling : String} {behind : List Char}
    (listed : (keyword, spelling) ∈ Keyword.spellings) (is : IsWord spelling.toList)
    (stops : EndsWord behind) : Takes (.word (some keyword)) spelling.toList behind := by
  rw [← Keyword.ofChars?_of_mem_spellings _ listed]
  exact takes_word is stops

theorem scans_key {keyword : Keyword} {spelling : String}
    (listed : (keyword, spelling) ∈ Keyword.spellings) (is : IsWord spelling.toList)
    (stops : stretch.StopsWord) (later : Scans (stretch :: rest)) :
    Scans (key keyword spelling :: stretch :: rest) :=
  ⟨takes_key listed is (endsWord_text stops rest), later⟩

theorem scans_anyWord {spelling : String} (is : IsWord spelling.toList) (stops : stretch.StopsWord)
    (later : Scans (stretch :: rest)) : Scans (anyWord spelling :: stretch :: rest) :=
  ⟨takes_word is (endsWord_text stops rest), later⟩

theorem scans_word {spelling : String} (is : IsWord spelling.toList)
    (no_keyword : Keyword.ofChars? spelling.toList = none) (stops : stretch.StopsWord)
    (later : Scans (stretch :: rest)) : Scans (word spelling :: stretch :: rest) := by
  refine ⟨?_, later⟩
  rw [← no_keyword]
  exact takes_word is (endsWord_text stops rest)

theorem exists_isLower_eq_false {cs : List Char} (mixed : cs.all Char.isLower = false) :
    ∃ c ∈ cs, c.isLower = false := by
  simpa using mixed

/-- A word that is not in lower case is no keyword. -/
theorem scans_name {spelling : String} (is : IsWord spelling.toList)
    (mixed : ∃ c ∈ spelling.toList, c.isLower = false) (stops : stretch.StopsWord)
    (later : Scans (stretch :: rest)) : Scans (word spelling :: stretch :: rest) := by
  obtain ⟨c, mem, other⟩ := mixed
  exact scans_word is (Keyword.ofChars?_eq_none mem other) stops later

theorem scans_quoted {body : String} (plain : IsQuoted '\'' body.toList) (later : Scans rest) :
    Scans (quoted body :: rest) := by
  refine ⟨?_, later⟩
  rw [String.toList_append, String.toList_append]
  exact takes_string (.inl rfl) plain (text rest)

theorem scans_mark {m : Punctuator} {spelling : String} {c : Char} {cs : List Char}
    (spelled : spelling.toList = c :: cs) (begins : BeginsMark c)
    (first : Lexeme.mark? (c :: cs ++ text rest) = some (m, c :: cs, text rest))
    (later : Scans rest) : Scans (mark m spelling :: rest) := by
  refine ⟨?_, later⟩
  rw [spelled]
  exact takes_mark begins first

/-- The marks that no longer mark begins with. -/
def shortMarks : List (Punctuator × String) :=
  [(.openBrace, "\x7b"), (.closeBrace, "\x7d"), (.openParen, "("), (.closeParen, ")"),
   (.openBracket, "["), (.closeBracket, "]"), (.semicolon, ";"), (.comma, ","), (.colon, ":"),
   (.greater, ">"), (.decorator, "@"), (.arrow, "=>")]

/-- Whatever stands behind it, a mark that no longer mark begins with is taken. -/
theorem takes_shortMark {m : Punctuator} {spelling : String} (short : (m, spelling) ∈ shortMarks)
    (behind : List Char) : Takes (.mark m) spelling.toList behind := by
  simp only [shortMarks, List.mem_cons, Prod.mk.injEq, List.not_mem_nil, or_false] at short
  rcases short with ⟨rfl, rfl⟩ | ⟨rfl, rfl⟩ | ⟨rfl, rfl⟩ | ⟨rfl, rfl⟩ | ⟨rfl, rfl⟩ | ⟨rfl, rfl⟩ |
    ⟨rfl, rfl⟩ | ⟨rfl, rfl⟩ | ⟨rfl, rfl⟩ | ⟨rfl, rfl⟩ | ⟨rfl, rfl⟩ | ⟨rfl, rfl⟩ <;>
    exact takes_mark (by decide) rfl

theorem scans_shortMark {m : Punctuator} {spelling : String} (short : (m, spelling) ∈ shortMarks)
    (later : Scans rest) : Scans (mark m spelling :: rest) :=
  ⟨takes_shortMark short (text rest), later⟩

/-- A dot in front of a word. -/
theorem scans_dot (is : IsWord stretch.chars) (later : Scans (stretch :: rest)) :
    Scans (mark .dot "." :: stretch :: rest) := by
  obtain ⟨⟨c, first, no_digit⟩, part⟩ := is
  have head : (text (stretch :: rest)).head? = some c := by
    rw [text_cons, List.head?_append, first]
    rfl
  refine ⟨takes_dot ?_ ?_, later⟩
  · rw [head]
    exact no_digit
  · rw [head]
    rintro ⟨⟩
    have dot := part '.' (List.mem_of_mem_head? first)
    revert dot
    decide

/-! ### Tokens of a layout -/

theorem tokensFrom_append (position : Nat) (afterBreak : Bool) (front back : List Stretch) :
    ∃ afterBreak',
      tokensFrom position afterBreak (front ++ back) =
        tokensFrom position afterBreak front ++
          tokensFrom (position + Text.size (text front)) afterBreak' back := by
  induction front generalizing position afterBreak with
  | nil => exact ⟨afterBreak, rfl⟩
  | cons stretch front ih =>
    cases stretch with
    | space cs =>
      obtain ⟨afterBreak', eq⟩ := ih (position + Text.size cs) (afterBreak || cs.any isLineBreak)
      exact ⟨afterBreak', by simp [tokensFrom, eq, chars, Nat.add_assoc]⟩
    | lexeme kind cs =>
      obtain ⟨afterBreak', eq⟩ := ih (position + Text.size cs) false
      exact ⟨afterBreak', by simp [tokensFrom, eq, chars, Nat.add_assoc]⟩

/-- Behind a lexeme no line has ended. -/
theorem tokensFrom_append_lexeme (position : Nat) (afterBreak : Bool) (front : List Stretch)
    (kind : TokenKind) (cs : List Char) (back : List Stretch) :
    tokensFrom position afterBreak (front ++ lexeme kind cs :: back) =
      tokensFrom position afterBreak (front ++ [lexeme kind cs]) ++
        tokensFrom (position + Text.size (text (front ++ [lexeme kind cs]))) false back := by
  induction front generalizing position afterBreak with
  | nil => simp [tokensFrom, chars]
  | cons stretch front ih =>
    cases stretch <;> simp [tokensFrom, chars, ih, Nat.add_assoc]

/-- The characters of the lexemes of stretches. -/
def lexemes : List Stretch → List (List Char)
  | [] => []
  | space _ :: rest => lexemes rest
  | lexeme _ cs :: rest => cs :: lexemes rest

/-- The tokens of a layout cover its lexemes. -/
theorem slice_tokensFrom (front layout : List Stretch) (afterBreak : Bool) :
    List.Forall₂ (fun t cs => Text.slice (text (front ++ layout)) t.start t.stop = cs)
      (tokensFrom (Text.size (text front)) afterBreak layout) (lexemes layout) := by
  induction layout generalizing front afterBreak with
  | nil => exact .nil
  | cons stretch rest ih =>
    have inner := ih (front ++ [stretch])
    rw [List.append_assoc, List.singleton_append, text_append front [stretch], Text.size_append]
      at inner
    cases stretch with
    | space cs => simpa [tokensFrom, lexemes, chars] using inner _
    | lexeme kind cs =>
      refine .cons ?_ (by simpa [chars] using inner false)
      rw [text_append, text_cons, ← List.append_assoc]
      exact Text.slice_append _ cs _

end Stretch

namespace Token

/-- What a token is, apart from where it is. -/
def shape (token : Token) : TokenKind × Bool := (token.kind, token.afterBreak)

/-- The token at an index, or one that stands for none. -/
def nth (tokens : List Token) (i : Nat) : Token := tokens[i]?.getD ⟨.stray, 0, 0, false⟩

theorem shape_nth (tokens : List Token) (i : Nat) :
    (nth tokens i).shape = ((tokens.map shape)[i]?).getD (.stray, false) := by
  rw [nth, List.getElem?_map]
  cases tokens[i]? <;> rfl

theorem kind_nth (tokens : List Token) (i : Nat) :
    (nth tokens i).kind = ((tokens.map kind)[i]?).getD .stray := by
  rw [nth, List.getElem?_map]
  cases tokens[i]? <;> rfl

theorem nth_append_left {front : List Token} {i : Nat} (less : i < front.length) (back : List Token) :
    nth (front ++ back) i = nth front i := by
  rw [nth, List.getElem?_append_left less, nth]

/-- Tokens are read by their indices, also where others stand in front of them. -/
theorem eq_map_nth_right (front back : List Token) :
    back = (List.range' front.length back.length).map (nth (front ++ back)) := by
  refine List.ext_getElem (by simp) fun i less _ => ?_
  simp [nth, less]

/-- Tokens are read by their indices. -/
theorem eq_map_nth (tokens : List Token) :
    tokens = (List.range' 0 tokens.length).map (nth tokens) :=
  eq_map_nth_right [] tokens

/-- Tokens are read by their indices, also where others stand behind them. -/
theorem eq_map_nth_left (front back : List Token) :
    front = (List.range' 0 front.length).map (nth (front ++ back)) := by
  rw [List.map_congr_left fun i mem => nth_append_left (by simpa using mem) back]
  exact eq_map_nth front

end Token

/-- A token of a layout covers its lexeme. -/
theorem Stretch.slice_nth {layout : List Stretch} {i : Nat} {cs : List Char}
    (lexeme : (lexemes layout)[i]? = some cs) :
    Text.slice (text layout) (Token.nth (tokensFrom 0 false layout) i).start
      (Token.nth (tokensFrom 0 false layout) i).stop = cs := by
  have covers := slice_tokensFrom [] layout false
  obtain ⟨less, rfl⟩ := List.getElem?_eq_some_iff.mp lexeme
  have less' : i < (tokensFrom 0 false layout).length := by
    have same := covers.length_eq
    simp only [text_nil, Text.size_nil] at same
    omega
  have here := covers.get (i := i) less' less
  simpa [Token.nth, less'] using here

/-- A token ends behind all that is laid out up to it. -/
theorem Stretch.stop_nth (position : Nat) (afterBreak : Bool) (front : List Stretch)
    (kind : TokenKind) (cs : List Char) (back : List Stretch) {i : Nat}
    (count : (tokensFrom position afterBreak front).length = i) :
    (Token.nth (tokensFrom position afterBreak (front ++ lexeme kind cs :: back)) i).stop =
      position + Text.size (text (front ++ [lexeme kind cs])) := by
  obtain ⟨afterBreak', eq⟩ := tokensFrom_append position afterBreak front (lexeme kind cs :: back)
  rw [Token.nth, eq, ← count, List.getElem?_append_right (Nat.le_refl _)]
  simp [tokensFrom, chars, Nat.add_assoc]

end Syntax

end ModelGrid
