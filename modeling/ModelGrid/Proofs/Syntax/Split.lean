import ModelGrid.Proofs.Syntax.Layout
import Mathlib.Data.List.TakeDrop
import Mathlib.Data.List.TakeWhile

/-!
# Where lexemes end

Every reader of a lexeme takes characters off the front of a text and leaves the others, so the two
together are the text.  Where a lexeme ends, no word goes on: behind a letter there is no letter, but
for numbers with an `n` at the end.  Of the letters that a word may end in, this module is about the
last one of `import`, which is the word that a file is searched for.

## Main definitions

* `Lexeme.Cuts`: a letter stands behind a `t` that ends the other text.
* `Lexeme.Splits`: a reader splits the text, and cuts no word.

## Main results

* `Lexeme.word_spec`: no word goes on behind a word.
* `Scanner.splits_plainToken`, `Scanner.splits_templateToken`: tokens split the text.
-/

namespace ModelGrid.Syntax

namespace Lexeme

variable {cs : List Char} {s : Split}

/-- Between the texts, a word that goes on with a letter would be cut behind its `t`. -/
def Cuts (front back : List Char) : Prop :=
  front.getLast? = some 't' ∧ ∃ c, back.head? = some c ∧ c.isAlpha = true

/-- What is taken and what is left is the text, and no word is cut. -/
structure Splits (cs : List Char) (s : Split) : Prop where
  append : s.1 ++ s.2 = cs
  whole : ¬ Cuts s.1 s.2

/-! ### Cuts -/

theorem not_cuts_of_getLast? {front back : List Char} (last : front.getLast? ≠ some 't') :
    ¬ Cuts front back := fun cuts => last cuts.1

theorem not_cuts_of_head? {front back : List Char}
    (stops : ∀ c, back.head? = some c → c.isAlpha = false) : ¬ Cuts front back := by
  rintro ⟨-, c, first, letter⟩
  rw [stops c first] at letter
  cases letter

theorem not_cuts_concat {front back : List Char} {c : Char} (other : c ≠ 't') :
    ¬ Cuts (front ++ [c]) back :=
  not_cuts_of_getLast? (by simpa using other)

theorem not_cuts_of_forall {front back : List Char} (others : ∀ c ∈ front, c ≠ 't') :
    ¬ Cuts front back :=
  not_cuts_of_getLast? fun last => others 't' (List.mem_of_getLast? last) rfl

/-- A text that is not empty ends in its own last character. -/
theorem not_cuts_append {front taken rest : List Char} (front_whole : ¬ Cuts front (taken ++ rest))
    (whole : ¬ Cuts taken rest) : ¬ Cuts (front ++ taken) rest := by
  rcases List.eq_nil_or_concat' taken with rfl | ⟨init, c, rfl⟩
  · simpa using front_whole
  · simpa [Cuts] using whole

namespace Splits

theorem push {c : Char} (splits : Splits cs s) (nonempty : s.1 ≠ []) :
    Splits (c :: cs) (s.push c) := by
  refine ⟨congrArg (c :: ·) splits.append, fun cuts => splits.whole ⟨?_, cuts.2⟩⟩
  have ends : (c :: s.1).getLast? = some 't' := cuts.1
  rwa [List.getLast?_cons_of_ne_nil nonempty] at ends

theorem single {c : Char} (other : c ≠ 't') (cs : List Char) : Splits (c :: cs) ([c], cs) :=
  ⟨rfl, not_cuts_of_getLast? (by simpa using other)⟩

end Splits

theorem letter_of_isAlpha {c : Char} (h : c.isAlpha = true) : isIdentifierPart c = true :=
  isIdentifierPart_of_isAlphanum (.inl (by simp [Char.isAlphanum, h]))

/-! ### Words -/

theorem span_spec {p : Char → Bool} {taken rest : List Char} (h : cs.span p = (taken, rest)) :
    taken ++ rest = cs ∧ (∀ c ∈ taken, p c = true) ∧ ∀ c, rest.head? = some c → p c = false := by
  rw [List.span_eq_takeWhile_dropWhile] at h
  cases h
  refine ⟨List.takeWhile_append_dropWhile, fun c mem => List.mem_takeWhile_imp mem, ?_⟩
  intro c first
  have stops := List.head?_dropWhile_not p cs
  rw [first] at stops
  simpa using stops

theorem escape?_spec (h : escape? cs = some s) : s.1 ++ s.2 = cs ∧ s.1 ≠ [] := by
  unfold escape? at h
  split at h
  next rest =>
    split at h
    next d ds after eq =>
      cases h
      obtain ⟨whole, -⟩ := span_spec eq
      exact ⟨by simp [← whole], nofun⟩
    next => cases h
  next =>
    split at h
    next =>
      cases h
      exact ⟨rfl, nofun⟩
    next => cases h
  next => cases h

/-- No word goes on behind the rest of a word. -/
theorem identifierTail_spec {n : Nat} (enough : cs.length ≤ n) :
    (identifierTail n cs).1 ++ (identifierTail n cs).2 = cs ∧
      ∀ c, (identifierTail n cs).2.head? = some c → isIdentifierPart c = false := by
  induction n generalizing cs with
  | zero =>
    obtain rfl := List.eq_nil_of_length_eq_zero (Nat.le_zero.mp enough)
    exact ⟨rfl, nofun⟩
  | succ n ih =>
    cases cs with
    | nil => exact ⟨rfl, nofun⟩
    | cons c cs =>
      rw [List.length_cons] at enough
      rw [identifierTail]
      split
      next =>
        have shorter : cs.length ≤ n := by omega
        obtain ⟨append, stops⟩ := ih shorter
        exact ⟨congrArg (c :: ·) append, stops⟩
      next no_part =>
        split
        next taken rest escaped =>
          obtain ⟨whole, some⟩ := escape?_spec escaped
          have shorter : rest.length ≤ n := by
            have length := congrArg List.length whole
            have pos := List.length_pos_iff.mpr some
            simp only [List.length_append, List.length_cons] at length pos
            omega
          obtain ⟨append, stops⟩ := ih shorter
          exact ⟨by simp only [List.append_assoc, append, whole], stops⟩
        next =>
          refine ⟨rfl, fun d first => ?_⟩
          cases first
          simpa using no_part

/-- **No word goes on behind a word.** -/
theorem word_spec (h : word cs = some s) :
    s.1 ++ s.2 = cs ∧ s.1 ≠ [] ∧ ∀ c, s.2.head? = some c → isIdentifierPart c = false := by
  unfold word at h
  split at h
  next => cases h
  next c rest =>
    split at h
    next => cases h
    next =>
      obtain ⟨append, stops⟩ := identifierTail_spec (Nat.le_refl (c :: rest).length)
      split at h
      next => cases h
      next some =>
        cases h
        refine ⟨append, fun empty => some _ (Prod.ext empty rfl), stops⟩

theorem splits_word (h : word cs = some s) : Splits cs s := by
  obtain ⟨append, -, stops⟩ := word_spec h
  refine ⟨append, not_cuts_of_head? fun c first => ?_⟩
  rw [Bool.eq_false_iff]
  intro letter
  have part := letter_of_isAlpha letter
  rw [stops c first] at part
  cases part

/-- A word begins where a part of an identifier stands that is no digit. -/
theorem exists_word {c : Char} (part : isIdentifierPart c = true) (no_digit : c.isDigit = false)
    (cs : List Char) : ∃ taken rest, word (c :: cs) = some (taken, rest) := by
  have tail : identifierTail (c :: cs).length (c :: cs) = (identifierTail cs.length cs).push c := by
    rw [List.length_cons, identifierTail, part, if_pos rfl]
  exact ⟨c :: (identifierTail cs.length cs).1, (identifierTail cs.length cs).2, by
    rw [word, no_digit, tail]
    rfl⟩

theorem splits_privateName (h : privateName cs = some s) : Splits cs s := by
  unfold privateName at h
  split at h
  next =>
    obtain ⟨inner, found, rfl⟩ := Option.map_eq_some_iff.mp h
    exact (splits_word found).push (word_spec found).2.1
  next => cases h

/-! ### Numbers -/

/-- What is taken is a part of a decimal number, which has no `t`. -/
structure Decimal (cs : List Char) (s : Split) : Prop where
  append : s.1 ++ s.2 = cs
  others : ∀ c ∈ s.1, c ≠ 't'

namespace Decimal

theorem splits (decimal : Decimal cs s) : Splits cs s :=
  ⟨decimal.append, not_cuts_of_forall decimal.others⟩

theorem nothing (cs : List Char) : Decimal cs ([], cs) := ⟨rfl, List.forall_mem_nil _⟩

theorem cons {c : Char} (other : c ≠ 't') (decimal : Decimal cs s) :
    Decimal (c :: cs) (c :: s.1, s.2) :=
  ⟨congrArg (c :: ·) decimal.append, List.forall_mem_cons.mpr ⟨other, decimal.others⟩⟩

theorem trans {front more middle rest : List Char} (first : Decimal cs (front, middle))
    (second : Decimal middle (more, rest)) : Decimal cs (front ++ more, rest) :=
  ⟨by rw [List.append_assoc, second.append, first.append],
    List.forall_mem_append.mpr ⟨first.others, second.others⟩⟩

theorem of_span {p : Char → Bool} (h : cs.span p = s) (other : p 't' = false) : Decimal cs s := by
  obtain ⟨append, all, -⟩ := span_spec h
  refine ⟨append, fun c mem => ?_⟩
  rintro rfl
  rw [all _ mem] at other
  cases other

theorem span {p : Char → Bool} (other : p 't' = false) (cs : List Char) : Decimal cs (cs.span p) :=
  of_span rfl other

end Decimal

theorem decimal_exponent (cs : List Char) : Decimal cs (exponent cs) := by
  unfold exponent
  split
  next e cs =>
    split
    next is_e =>
      have no_t : e ≠ 't' := by
        rintro rfl
        revert is_e
        decide
      split
      next sign d rest =>
        split
        next signed =>
          have no_t' : sign ≠ 't' := by
            rintro rfl
            revert signed
            simp
          exact ((Decimal.span (by decide) (d :: rest)).cons no_t').cons no_t
        next =>
          split
          next => exact (Decimal.span (by decide) (sign :: d :: rest)).cons no_t
          next => exact .nothing _
      next d =>
        split
        next digit =>
          have no_t' : d ≠ 't' := by
            rintro rfl
            revert digit
            decide
          exact ((Decimal.nothing []).cons no_t').cons no_t
        next => exact .nothing _
      next => exact .nothing _
    next =>
      split
      next is_n =>
        have no_t : e ≠ 't' := by
          rintro rfl
          revert is_n
          decide
        exact (Decimal.nothing cs).cons no_t
      next => exact .nothing _
  next => exact .nothing _

theorem decimal_fraction (cs : List Char) : Decimal cs (fraction cs) := by
  unfold fraction
  split
  next cs => exact ((Decimal.span (by decide) cs).trans (decimal_exponent _)).cons (by decide)
  next => exact decimal_exponent _

theorem splits_number (h : number cs = some s) : Splits cs s := by
  have decimal {p : Char → Bool} {cs digits rest : List Char} (eq : cs.span p = (digits, rest))
      (other : p 't' = false) : Splits cs (digits ++ (fraction rest).1, (fraction rest).2) :=
    ((Decimal.of_span eq other).trans (decimal_fraction rest)).splits
  unfold number at h
  split at h
  next x d cs =>
    split at h
    next =>
      -- a number in another base takes all letters behind its prefix
      split at h
      next digits rest eq =>
        cases h
        obtain ⟨append, -, stops⟩ := span_spec eq
        refine ⟨congrArg ('0' :: x :: ·) append, not_cuts_of_head? fun c first => ?_⟩
        have stop : (c.isAlphanum || c == '_') = false := stops c first
        simp only [Char.isAlphanum, Bool.or_eq_false_iff] at stop
        exact stop.1.1
    next =>
      split at h
      next digits rest eq =>
        cases h
        exact decimal eq (by decide)
  next =>
    split at h
    next =>
      cases h
      exact (decimal_fraction _).splits
    next => cases h
  next =>
    split at h
    next =>
      split at h
      next digits rest eq =>
        cases h
        exact decimal eq (by decide)
    next => cases h
  next => cases h

/-! ### Strings and regular expressions -/

theorem splits_quotedTail {quote : Char} (other : quote ≠ 't') (h : quotedTail quote cs = some s) :
    Splits cs s ∧ s.1 ≠ [] := by
  fun_induction quotedTail quote cs generalizing s with
  | case1 => cases h
  | case2 cs ih =>
    obtain ⟨inner, found, rfl⟩ := Option.map_eq_some_iff.mp h
    obtain ⟨splits, nonempty⟩ := ih found
    exact ⟨((splits.push nonempty).push nofun).push nofun, nofun⟩
  | case3 c cs _ ih =>
    obtain ⟨inner, found, rfl⟩ := Option.map_eq_some_iff.mp h
    obtain ⟨splits, nonempty⟩ := ih found
    exact ⟨(splits.push nonempty).push nofun, nofun⟩
  | case4 c cs _ _ is =>
    cases h
    obtain rfl := beq_iff_eq.mp is
    exact ⟨.single other cs, nofun⟩
  | case5 => cases h
  | case6 c cs _ _ _ _ ih =>
    obtain ⟨inner, found, rfl⟩ := Option.map_eq_some_iff.mp h
    obtain ⟨splits, nonempty⟩ := ih found
    exact ⟨splits.push nonempty, nofun⟩

theorem splits_quoted (h : quoted cs = some s) : Splits cs s := by
  unfold quoted at h
  split at h
  next c cs =>
    split at h
    next is =>
      obtain ⟨inner, found, rfl⟩ := Option.map_eq_some_iff.mp h
      have no_t : c ≠ 't' := by
        rintro rfl
        revert is
        decide
      obtain ⟨splits, nonempty⟩ := splits_quotedTail no_t found
      exact splits.push nonempty
    next => cases h
  next => cases h

theorem append_of_regexTail {inClass : Bool} (h : regexTail inClass cs = some s) :
    s.1 ++ s.2 = cs := by
  fun_induction regexTail inClass cs generalizing s with
  | case1 => cases h
  | case2 => cases h
  | case3 inClass c cs _ ih =>
    obtain ⟨inner, found, rfl⟩ := Option.map_eq_some_iff.mp h
    exact congrArg ('\\' :: c :: ·) (ih found)
  | case4 => cases h
  | case5 =>
    cases h
    rfl
  | case6 inClass c cs _ _ _ ih =>
    obtain ⟨inner, found, rfl⟩ := Option.map_eq_some_iff.mp h
    exact congrArg (c :: ·) (ih found)

theorem splits_regex (h : regex cs = some s) : Splits cs s := by
  unfold regex at h
  split at h
  next cs =>
    obtain ⟨⟨body, rest⟩, found, eq⟩ := Option.map_eq_some_iff.mp h
    dsimp only at eq
    generalize flags_eq : rest.span Char.isAlpha = flags at eq
    obtain ⟨append, -, stops⟩ := span_spec (flags_eq : _ = (flags.1, flags.2))
    have whole : body ++ rest = cs := append_of_regexTail found
    rw [← eq]
    refine ⟨?_, not_cuts_of_head? stops⟩
    rw [← whole, ← append]
    simp
  next => cases h

/-! ### Templates and comments -/

/-- Literal characters of a template end in front of a backquote or a dollar sign. -/
theorem splits_templateChars (cs : List Char) : Splits cs (templateChars cs) := by
  have spec : (templateChars cs).1 ++ (templateChars cs).2 = cs ∧
      ∀ c, (templateChars cs).2.head? = some c → c.isAlpha = false := by
    fun_induction templateChars cs with
    | case1 => exact ⟨rfl, nofun⟩
    | case2 c cs s ih => exact ⟨congrArg ('\\' :: c :: ·) ih.1, ih.2⟩
    | case3 =>
      refine ⟨rfl, fun c first => ?_⟩
      cases first
      rfl
    | case4 =>
      refine ⟨rfl, fun c first => ?_⟩
      cases first
      rfl
    | case5 c cs _ _ _ ih => exact ⟨congrArg (c :: ·) ih.1, ih.2⟩
  exact ⟨spec.1, not_cuts_of_head? spec.2⟩

theorem splits_blockCommentTail (h : blockCommentTail cs = some s) : Splits cs s ∧ s.1 ≠ [] := by
  fun_induction blockCommentTail cs generalizing s with
  | case1 => cases h
  | case2 cs =>
    cases h
    exact ⟨(Splits.single (by decide) cs).push nofun, nofun⟩
  | case3 c cs _ ih =>
    obtain ⟨inner, found, rfl⟩ := Option.map_eq_some_iff.mp h
    obtain ⟨splits, nonempty⟩ := ih found
    exact ⟨splits.push nonempty, nofun⟩

theorem splits_comment (h : comment cs = some s) : Splits cs s := by
  unfold comment at h
  split at h
  next cs =>
    split at h
    next body rest eq =>
      cases h
      obtain ⟨append, -, stops⟩ := span_spec eq
      refine ⟨congrArg ('/' :: '/' :: ·) append, not_cuts_of_head? fun c first => ?_⟩
      have breaks : (isLineBreak c || c == '\r') = true := (Bool.not_eq_false' _).mp (stops c first)
      simp only [isLineBreak, Bool.or_eq_true, beq_iff_eq] at breaks
      rcases breaks with ((rfl | rfl) | rfl) | rfl <;> rfl
  next cs =>
    obtain ⟨inner, found, rfl⟩ := Option.map_eq_some_iff.mp h
    obtain ⟨splits, nonempty⟩ := splits_blockCommentTail found
    exact (splits.push nonempty).push (List.cons_ne_nil _ _)
  next => cases h

theorem splits_interpreterLine (h : interpreterLine cs = some s) : Splits cs s := by
  unfold interpreterLine at h
  split at h
  next cs =>
    split at h
    next body rest eq =>
      cases h
      obtain ⟨append, -, stops⟩ := span_spec eq
      refine ⟨congrArg ('#' :: '!' :: ·) append, not_cuts_of_head? fun c first => ?_⟩
      obtain rfl : c = '\n' := by simpa using stops c first
      rfl
  next => cases h

/-! ### Marks -/

theorem literally_spec {spelling : List Char} (h : literally spelling cs = some s) :
    s.1 = spelling ∧ spelling ++ s.2 = cs := by
  induction spelling generalizing cs s with
  | nil =>
    cases h
    exact ⟨rfl, rfl⟩
  | cons l ls ih =>
    cases cs with
    | nil => cases h
    | cons c cs =>
      rw [literally] at h
      split at h
      next same =>
        obtain ⟨inner, found, rfl⟩ := Option.map_eq_some_iff.mp h
        obtain ⟨taken, append⟩ := ih found
        obtain rfl := beq_iff_eq.mp same
        exact ⟨congrArg (l :: ·) taken, congrArg (l :: ·) append⟩
      next => cases h

/-- No mark has a letter. -/
theorem splits_firstMark? {m : Punctuator} {marks : List (Punctuator × String)}
    (others : ∀ entry ∈ marks, entry.2.toList.getLast? ≠ some 't')
    (h : firstMark? marks cs = some (m, s)) : Splits cs s := by
  induction marks with
  | nil => cases h
  | cons entry rest ih =>
    obtain ⟨other, others⟩ := List.forall_mem_cons.mp others
    rw [firstMark?] at h
    split at h
    next found =>
      cases h
      obtain ⟨taken, append⟩ := literally_spec found
      exact ⟨taken ▸ append, not_cuts_of_getLast? (taken ▸ other)⟩
    next => exact ih others h

theorem splits_mark? {m : Punctuator} (h : mark? cs = some (m, s)) : Splits cs s := by
  have others : ∀ entry ∈ Punctuator.spellings, entry.2.toList.getLast? ≠ some 't' := by
    decide +kernel
  unfold mark? at h
  split at h
  next =>
    split at h
    next =>
      cases h
      exact .single (by decide) _
    next => exact splits_firstMark? others h
  next => exact splits_firstMark? others h

end Lexeme

open Lexeme

/-! ### Tokens -/

namespace Scanner

variable {cs : List Char} {split : Split} {kind : TokenKind}

theorem splits_templateToken (h : templateToken cs = some (kind, split)) : Splits cs split := by
  unfold templateToken at h
  split at h
  next => cases h
  next =>
    cases h
    exact .single (by decide) _
  next =>
    cases h
    exact (Splits.single (by decide) _).push nofun
  next =>
    cases h
    exact splits_templateChars cs

/-- **A token splits the text.** -/
theorem splits_plainToken {s : Scanner} (h : s.plainToken cs = some (kind, split)) :
    Splits cs split := by
  unfold plainToken at h
  split at h
  next => cases h
  next c cs =>
    dsimp only at h
    split at h
    next taken rest found =>
      cases h
      exact splits_word found
    next no_word =>
      split at h
      next found =>
        cases h
        exact splits_number found
      next =>
        split at h
        next found =>
          cases h
          exact splits_quoted found
        next =>
          split at h
          next is =>
            cases h
            obtain rfl := beq_iff_eq.mp is
            exact .single (by decide) cs
          next =>
            split at h
            next found =>
              cases h
              exact splits_privateName found
            next =>
              split at h
              next found =>
                cases h
                split at found
                next => cases found
                next => exact splits_regex found
              next =>
                split at h
                next found =>
                  cases h
                  exact splits_mark? found
                next =>
                  cases h
                  refine .single ?_ cs
                  rintro rfl
                  obtain ⟨taken, rest, is_word⟩ := exists_word (c := 't') rfl rfl cs
                  exact no_word taken rest is_word

/-- A token that is a word is one of the text. -/
theorem word_of_plainToken {s : Scanner} {keyword : Option Keyword}
    (h : s.plainToken cs = some (.word keyword, split)) :
    word cs = some split ∧ Keyword.ofChars? split.1 = keyword := by
  unfold plainToken at h
  split at h
  next => cases h
  next c cs =>
    dsimp only at h
    split at h
    next found =>
      cases h
      exact ⟨found, rfl⟩
    next =>
      repeat' split at h
      all_goals cases h

theorem not_word_of_templateToken {keyword : Option Keyword} :
    templateToken cs ≠ some (.word keyword, split) := by
  intro h
  unfold templateToken at h
  split at h <;> cases h

end Scanner

/-! ### What a scan finds -/

/-- In a text from byte `base` on, the offset is between characters, and cuts no word. -/
def Lexeme.Parts (base : Nat) (text : List Char) (offset : Nat) : Prop :=
  ∃ front back, text = front ++ back ∧ base + Text.size front = offset ∧ ¬ Cuts front back

/-- In a text from byte `base` on, the token parts the text at its two ends, and if it is a word, it
is a whole one. -/
structure Token.IsOf (base : Nat) (text : List Char) (t : Token) : Prop where
  start : Parts base text t.start
  stop : Parts base text t.stop
  word : ∀ keyword, t.kind = .word keyword → ∃ front cs back, text = front ++ cs ++ back ∧
    Keyword.ofChars? cs = keyword ∧ ∀ c, back.head? = some c → isIdentifierPart c = false

/-- In a text from byte `base` on, the comment parts the text at its two ends. -/
structure Comment.IsOf (base : Nat) (text : List Char) (c : Comment) : Prop where
  start : Parts base text c.start
  stop : Parts base text c.stop

/-- **What a scan finds** is of the text, if it begins where no word is cut. -/
theorem Scanner.isOf_run (s : Scanner) (fuel : Nat) (afterBreak : Bool) {base position : Nat}
    {front cs : List Char} (whole : ¬ Cuts front cs) (here : base + Text.size front = position) :
    (∀ t ∈ (s.run fuel position afterBreak cs).1, t.IsOf base (front ++ cs)) ∧
      ∀ c ∈ (s.run fuel position afterBreak cs).2, c.IsOf base (front ++ cs) := by
  induction fuel generalizing s afterBreak position front cs with
  | zero => exact ⟨List.forall_mem_nil _, List.forall_mem_nil _⟩
  | succ fuel ih =>
    cases cs with
    | nil => exact ⟨List.forall_mem_nil _, List.forall_mem_nil _⟩
    | cons c cs =>
      have begins : Parts base (front ++ c :: cs) position := ⟨front, c :: cs, rfl, here, whole⟩
      -- the scan goes on behind what is taken
      have further {taken rest : List Char} (splits : Splits (c :: cs) (taken, rest))
          (s : Scanner) (afterBreak : Bool) :
          Parts base (front ++ c :: cs) (position + Text.size taken) ∧
            (∀ t ∈ (s.run fuel (position + Text.size taken) afterBreak rest).1,
              t.IsOf base (front ++ c :: cs)) ∧
            ∀ c' ∈ (s.run fuel (position + Text.size taken) afterBreak rest).2,
              c'.IsOf base (front ++ c :: cs) := by
        have append : taken ++ rest = c :: cs := splits.append
        have whole' : ¬ Cuts (front ++ taken) rest :=
          not_cuts_append (append ▸ whole) splits.whole
        have here' : base + Text.size (front ++ taken) = position + Text.size taken := by
          rw [Text.size_append]
          omega
        rw [← append, ← List.append_assoc]
        exact ⟨⟨_, _, rfl, here', whole'⟩, ih s afterBreak whole' here'⟩
      rw [run]
      dsimp only
      split
      next =>
        split
        next => exact ⟨List.forall_mem_nil _, List.forall_mem_nil _⟩
        next kind taken rest found =>
          obtain ⟨ends, tokens, comments⟩ := further (splits_templateToken found) _ _
          refine ⟨List.forall_mem_cons.mpr ⟨⟨begins, ends, ?_⟩, tokens⟩, comments⟩
          rintro keyword rfl
          exact absurd found not_word_of_templateToken
      next =>
        split
        next space =>
          have no_t : c ≠ 't' := by
            rintro rfl
            revert space
            decide
          exact (further (.single no_t cs) s _).2
        next =>
          split
          next taken rest found =>
            obtain ⟨ends, tokens, comments⟩ := further (splits_comment found) s _
            exact ⟨tokens, List.forall_mem_cons.mpr ⟨⟨begins, ends⟩, comments⟩⟩
          next =>
            split
            next => exact ⟨List.forall_mem_nil _, List.forall_mem_nil _⟩
            next kind taken rest found =>
              obtain ⟨ends, tokens, comments⟩ := further (splits_plainToken found) _ _
              refine ⟨List.forall_mem_cons.mpr ⟨⟨begins, ends, ?_⟩, tokens⟩, comments⟩
              rintro keyword rfl
              obtain ⟨is_word, spelling⟩ := word_of_plainToken found
              obtain ⟨append, -, stops⟩ := word_spec is_word
              exact ⟨front, taken, rest, by rw [List.append_assoc, append], spelling, stops⟩

theorem Keyword.eq_import_of_ofChars? {cs : List Char}
    (h : Keyword.ofChars? cs = some .importWord) : cs = "import".toList := by
  obtain ⟨entry, found, is⟩ := Option.map_eq_some_iff.mp h
  have spelled : ∀ entry ∈ Keyword.spellings, entry.1 = .importWord → entry.2 = "import" := by
    decide +kernel
  have same : entry.2.toList = cs := by simpa using List.find?_some found
  rw [← same, spelled entry (List.mem_of_find?_eq_some found) is]

/-- The word `import` is not in the text: where its letters stand, a longer word goes on. -/
def Lexeme.LacksImport (text : List Char) : Prop :=
  ∀ front back, text = front ++ "import".toList ++ back →
    ∃ c, back.head? = some c ∧ isIdentifierPart c = true

/-- A text without the word has no token of it. -/
theorem Token.IsOf.ne_import {base : Nat} {text : List Char} {t : Token} (is : t.IsOf base text)
    (lacks : LacksImport text) : t.kind ≠ .word (some .importWord) := by
  intro kind
  obtain ⟨front, cs, back, eq, spelling, stops⟩ := is.word _ kind
  rw [Keyword.eq_import_of_ofChars? spelling] at eq
  obtain ⟨c, first, part⟩ := lacks front back eq
  rw [stops c first] at part
  cases part

/-- **The tokens and comments of a text** are of it. -/
theorem Token.isOf_scan (text : List Char) :
    (∀ t ∈ (Token.scan text).1, t.IsOf 0 text) ∧ ∀ c ∈ (Token.scan text).2, c.IsOf 0 text := by
  have nothing (back : List Char) : ¬ Cuts [] back := nofun
  rw [Token.scan]
  split
  next taken rest found =>
    have splits := splits_interpreterLine found
    have append : taken ++ rest = text := splits.append
    obtain ⟨tokens, comments⟩ :=
      Scanner.isOf_run {} text.length false splits.whole (Nat.zero_add _)
    rw [append] at tokens comments
    refine ⟨List.forall_mem_cons.mpr ⟨⟨⟨[], text, rfl, rfl, nothing text⟩, ?_, by simp⟩, tokens⟩,
      comments⟩
    exact ⟨taken, rest, append.symm, Nat.zero_add _, splits.whole⟩
  next => exact Scanner.isOf_run {} text.length false (nothing text) rfl

end ModelGrid.Syntax
