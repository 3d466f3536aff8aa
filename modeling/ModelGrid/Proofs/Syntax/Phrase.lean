import ModelGrid.Syntax.Grammar.Phrase
import Mathlib.Data.List.Basic

/-!
# Reading phrases step by step

Each combinator with the tokens that it reads, as an equation whose right side asks for the first
phrase first.  Rewritten by these, a rule of the grammar reads concrete tokens one after another, and
leaves those behind them alone.

Repetition is bounded by the number of tokens.  `many_cons` says that the bound is never met, so that
what is repeated can be read without counting.

## Main results

* `Phrase.many_cons`: one repetition, or none.
* `Phrase.mark_cons`, `Phrase.key_cons`, `Phrase.name_cons`: the phrases of one token.
-/

namespace ModelGrid.Syntax

theorem Token.isWord_iff {token : Token} :
    token.isWord = true ↔ ∃ keyword, token.kind = .word keyword := by
  obtain ⟨kind, _, _, _⟩ := token
  cases kind <;> simp [Token.isWord]

namespace Phrase

variable {p : Phrase} {tokens rest : List Token} {nodes : List Node}

/-! ### Sequence and choice -/

@[simp] theorem seq_nil (tokens : List Token) : seq [] tokens = some ([], tokens) := rfl

@[simp] theorem seq_cons (p : Phrase) (ps : List Phrase) (tokens : List Token) :
    seq (p :: ps) tokens =
      match p tokens with
      | none => none
      | some (nodes, rest) =>
        match seq ps rest with
        | none => none
        | some (more, after) => some (nodes ++ more, after) := rfl

@[simp] theorem first_nil (tokens : List Token) : first [] tokens = none := rfl

@[simp] theorem first_cons (p : Phrase) (ps : List Phrase) (tokens : List Token) :
    first (p :: ps) tokens =
      match p tokens with
      | some found => some found
      | none => first ps tokens := rfl

@[simp] theorem opt_apply (ps : List Phrase) (tokens : List Token) :
    opt ps tokens =
      match seq ps tokens with
      | some found => some found
      | none => some ([], tokens) := rfl

@[simp] theorem map_apply (f : List Node → List Node) (p : Phrase) (tokens : List Token) :
    map f p tokens =
      match p tokens with
      | none => none
      | some (nodes, rest) => some (f nodes, rest) := rfl

@[simp] theorem build_apply (kind : Kind) (ps : List Phrase) (tokens : List Token) :
    build kind ps tokens =
      match seq ps tokens with
      | none => none
      | some (nodes, rest) => some ([Node.branch kind nodes], rest) := rfl

@[simp] theorem extend_apply (kind : Kind) (left : List Node) (ps : List Phrase) (tokens : List Token) :
    extend kind left ps tokens =
      match seq ps tokens with
      | none => none
      | some (nodes, rest) => some ([Node.branch kind (left ++ nodes)], rest) := by
  rw [extend, build_apply, seq_cons, emit]
  simp only
  cases seq ps tokens <;> rfl

@[simp] theorem andThen_apply (p : Phrase) (next : List Node → Phrase) (tokens : List Token) :
    andThen p next tokens =
      match p tokens with
      | none => none
      | some (left, rest) => next left rest := rfl

@[simp] theorem role_apply (field : Field) (p : Phrase) (tokens : List Token) :
    role field p tokens =
      match p tokens with
      | none => none
      | some (nodes, rest) => some (nodes.map (Node.withField field), rest) := rfl

@[simp] theorem emit_apply (nodes : List Node) (tokens : List Token) :
    emit nodes tokens = some (nodes, tokens) := rfl

@[simp] theorem test_apply (passes : List Token → Bool) (tokens : List Token) :
    test passes tokens = if passes tokens then some ([], tokens) else none := rfl

@[simp] theorem ahead_apply (p : Phrase) (tokens : List Token) :
    ahead p tokens =
      match p tokens with
      | none => none
      | some _ => some ([], tokens) := by
  rw [ahead, test]
  cases p tokens <;> rfl

@[simp] theorem notAhead_apply (p : Phrase) (tokens : List Token) :
    notAhead p tokens =
      match p tokens with
      | none => some ([], tokens)
      | some _ => none := by
  rw [notAhead, test]
  cases p tokens <;> rfl

/-! ### Repetition -/

theorem manyUpTo_of_none (h : p tokens = none) (fuel : Nat) :
    manyUpTo p fuel tokens = some ([], tokens) := by
  cases fuel with
  | zero => rfl
  | succ fuel => rw [manyUpTo, h]

theorem manyUpTo_succ_nil (fuel : Nat) : manyUpTo p fuel [] = some ([], []) := by
  cases fuel with
  | zero => rfl
  | succ fuel =>
    rw [manyUpTo]
    cases p [] with
    | none => rfl
    | some found => simp

/-- The number of tokens is a bound that is never met. -/
theorem manyUpTo_eq_manyUpTo {n m : Nat} (hn : tokens.length ≤ n) (hm : tokens.length ≤ m) :
    manyUpTo p n tokens = manyUpTo p m tokens := by
  induction n generalizing m tokens with
  | zero =>
    rw [List.length_eq_zero_iff.mp (Nat.le_zero.mp hn), manyUpTo_succ_nil, manyUpTo_succ_nil]
  | succ n ih =>
    cases m with
    | zero =>
      rw [List.length_eq_zero_iff.mp (Nat.le_zero.mp hm), manyUpTo_succ_nil, manyUpTo_succ_nil]
    | succ m =>
      rw [manyUpTo, manyUpTo]
      cases p tokens with
      | none => rfl
      | some found =>
        obtain ⟨nodes, rest⟩ := found
        by_cases less : rest.length < tokens.length
        · have inner : manyUpTo p n rest = manyUpTo p m rest := ih (by omega) (by omega)
          simp only [less, if_true, inner]
        · simp only [less, if_false]

/-- What is repeated is read once and then as often as it fits, if it reads anything. -/
theorem many_eq (p : Phrase) (tokens : List Token) :
    many p tokens =
      match p tokens with
      | none => some ([], tokens)
      | some (nodes, rest) =>
        if rest.length < tokens.length then
          match many p rest with
          | none => none
          | some (more, after) => some (nodes ++ more, after)
        else some ([], tokens) := by
  cases found : p tokens with
  | none => exact manyUpTo_of_none found tokens.length
  | some result =>
    obtain ⟨nodes, rest⟩ := result
    by_cases less : rest.length < tokens.length
    · obtain ⟨n, eq⟩ : ∃ n, tokens.length = n + 1 := ⟨tokens.length - 1, by omega⟩
      have inner : manyUpTo p n rest = many p rest := manyUpTo_eq_manyUpTo (by omega) (Nat.le_refl _)
      rw [many, eq, manyUpTo, found]
      dsimp only
      rw [if_pos less, inner]
      exact (if_pos (eq ▸ less)).symm
    · cases tokens with
      | nil => simp [many, manyUpTo]
      | cons token later =>
        have bound : ¬ rest.length < later.length + 1 := less
        rw [many, List.length_cons, manyUpTo, found]
        simp only [List.length_cons, bound, if_false]

/-- Repetition at a token, as one step. -/
@[simp] theorem many_cons (p : Phrase) (token : Token) (later : List Token) :
    many p (token :: later) =
      match p (token :: later) with
      | none => some ([], token :: later)
      | some (nodes, rest) =>
        if rest.length < later.length + 1 then
          match many p rest with
          | none => none
          | some (more, after) => some (nodes ++ more, after)
        else some ([], token :: later) :=
  many_eq p (token :: later)

@[simp] theorem many_nil (p : Phrase) : many p [] = some ([], []) := rfl

/-- Repetition never fails. -/
theorem exists_manyUpTo (p : Phrase) (fuel : Nat) (tokens : List Token) :
    ∃ found, manyUpTo p fuel tokens = some found := by
  induction fuel generalizing tokens with
  | zero => exact ⟨_, rfl⟩
  | succ fuel ih =>
    rw [manyUpTo]
    cases p tokens with
    | none => exact ⟨_, rfl⟩
    | some found =>
      obtain ⟨nodes, rest⟩ := found
      obtain ⟨⟨more, after⟩, later⟩ := ih rest
      by_cases less : rest.length < tokens.length
      · exact ⟨(nodes ++ more, after), by simp only [less, if_true, later]⟩
      · exact ⟨([], tokens), by simp only [less, if_false]⟩

/-- The phrase reads the nodes off the tokens, one time after another, up to the tokens `after`. -/
inductive Reads (p : Phrase) : List Token → List Node → List Token → Prop
  | nil (tokens : List Token) : Reads p tokens [] tokens
  | cons {tokens rest after : List Token} {nodes more : List Node}
      (one : p tokens = some (nodes, rest)) (less : rest.length < tokens.length)
      (later : Reads p rest more after) : Reads p tokens (nodes ++ more) after

namespace Reads

variable {after : List Token} {more : List Node}

theorem single (one : p tokens = some (nodes, rest)) (less : rest.length < tokens.length) :
    Reads p tokens nodes rest := by
  simpa using Reads.cons one less (.nil rest)

theorem trans (reads : Reads p tokens nodes rest) (later : Reads p rest more after) :
    Reads p tokens (nodes ++ more) after := by
  induction reads with
  | nil => exact later
  | cons one less _ ih =>
    rw [List.append_assoc]
    exact .cons one less (ih later)

/-- A choice whose first phrase fits reads what that reads. -/
theorem first (reads : Reads p tokens nodes rest) (others : List Phrase) :
    Reads (Phrase.first (p :: others)) tokens nodes rest := by
  induction reads with
  | nil tokens => exact .nil tokens
  | cons one less _ ih => exact .cons (by rw [first_cons, one]) less ih

theorem length_le (reads : Reads p tokens nodes rest) : rest.length ≤ tokens.length := by
  induction reads with
  | nil => exact Nat.le_refl _
  | cons _ less _ ih => omega

/-- Repetition reads as long as the phrase fits. -/
theorem many_eq (reads : Reads p tokens nodes rest) (stops : p rest = none) :
    many p tokens = some (nodes, rest) := by
  induction reads with
  | nil tokens => rw [Phrase.many_eq, stops]
  | cons one less _ ih =>
    rw [Phrase.many_eq, one]
    simp only [less, if_true, ih stops]

/-- Repetition first reads what the phrase does, and then what it reads as often as it fits. -/
theorem many_append (reads : Reads p tokens nodes rest) :
    ∃ more after, many p rest = some (more, after) ∧ many p tokens = some (nodes ++ more, after) := by
  induction reads with
  | nil tokens =>
    obtain ⟨⟨more, after⟩, eq⟩ := exists_manyUpTo p tokens.length tokens
    exact ⟨more, after, eq, eq⟩
  | @cons tokens rest _ nodes _ one less _ ih =>
    obtain ⟨more, after, rest_eq, eq⟩ := ih
    refine ⟨more, after, rest_eq, ?_⟩
    rw [Phrase.many_eq, one]
    simp only [less, if_true, eq, List.append_assoc]

end Reads

@[simp] theorem separated_apply (by' : Punctuator) (p : Phrase) (tokens : List Token) :
    separated by' p tokens = seq [p, many (seq [mark by', p])] tokens := rfl

@[simp] theorem commaList_apply (p : Phrase) (tokens : List Token) :
    commaList p tokens = many (first [mark .comma, p]) tokens := rfl

@[simp] theorem chain_apply (p : Phrase) (suffix : List Node → Phrase) (tokens : List Token) :
    chain p suffix tokens =
      match p tokens with
      | none => none
      | some (left, rest) => chainUpTo suffix rest.length left rest := rfl

@[simp] theorem chainUpTo_succ (suffix : List Node → Phrase) (fuel : Nat) (left : List Node)
    (tokens : List Token) :
    chainUpTo suffix (fuel + 1) left tokens =
      match suffix left tokens with
      | none => some (left, tokens)
      | some (next, rest) => chainUpTo suffix fuel next rest := rfl

/-- The suffix turns the nodes `left` into `final`, one time after another, and reads the tokens up
to `after` for it. -/
inductive Extends (suffix : List Node → Phrase) :
    List Node → List Token → List Node → List Token → Prop
  | nil (left : List Node) (tokens : List Token) : Extends suffix left tokens left tokens
  | cons {left next final : List Node} {tokens rest after : List Token}
      (one : suffix left tokens = some (next, rest)) (less : rest.length < tokens.length)
      (later : Extends suffix next rest final after) : Extends suffix left tokens final after

/-- The number of tokens is bound enough for what is read off them. -/
theorem Extends.chainUpTo_eq {suffix : List Node → Phrase} {left final : List Node}
    {after : List Token} (extended : Extends suffix left tokens final after)
    (stops : suffix final after = none) {fuel : Nat} (enough : tokens.length ≤ fuel) :
    chainUpTo suffix fuel left tokens = some (final, after) := by
  induction extended generalizing fuel with
  | nil left tokens =>
    cases fuel with
    | zero => rfl
    | succ fuel => rw [chainUpTo_succ, stops]
  | cons one less _ ih =>
    obtain ⟨fuel, rfl⟩ : ∃ k, fuel = k + 1 := ⟨fuel - 1, by omega⟩
    rw [chainUpTo_succ, one]
    exact ih stops (by omega)

/-- What stands to the left is extended as long as the suffix fits. -/
theorem Extends.chain_eq {suffix : List Node → Phrase} {left final : List Node}
    {after : List Token} (extended : Extends suffix left rest final after)
    (begins : p tokens = some (left, rest)) (stops : suffix final after = none) :
    chain p suffix tokens = some (final, after) := by
  rw [chain_apply, begins]
  exact extended.chainUpTo_eq stops (Nat.le_refl _)

/-! ### Single tokens -/

theorem leaf_cons (kind : Kind) (passes : Token → Bool) (token : Token) (later : List Token) :
    leaf kind passes (token :: later) =
      if passes token then some ([Node.leaf kind token.start token.stop], later) else none := rfl

@[simp] theorem mark_cons (m : Punctuator) (token : Token) (later : List Token) :
    mark m (token :: later) =
      if token.kind = .mark m then
        some ([Node.leaf (kindOfMark m) token.start token.stop], later)
      else none := by
  obtain ⟨kind, _, _, _⟩ := token
  cases kind <;> simp [mark, leaf_cons, Token.mark?]

@[simp] theorem key_cons (keyword : Keyword) (token : Token) (later : List Token) :
    key keyword (token :: later) =
      if token.kind = .word (some keyword) then
        some ([Node.leaf (if keyword = .returnWord then .returnKeyword else .keyword) token.start
          token.stop], later)
      else none := by
  obtain ⟨kind, _, _, _⟩ := token
  cases kind <;> simp [key, leaf_cons, Token.keyword?]

@[simp] theorem keyAs_cons (kind : Kind) (keyword : Keyword) (token : Token) (later : List Token) :
    keyAs kind keyword (token :: later) =
      if token.kind = .word (some keyword) then
        some ([Node.leaf kind token.start token.stop], later)
      else none := by
  obtain ⟨found, _, _, _⟩ := token
  cases found <;> simp [keyAs, leaf_cons, Token.keyword?]

@[simp] theorem token_cons (kind : Kind) (expected : TokenKind) (token : Token) (later : List Token) :
    Phrase.token kind expected (token :: later) =
      if token.kind = expected then some ([Node.leaf kind token.start token.stop], later)
      else none := by
  simp [Phrase.token, leaf_cons]

@[simp] theorem name_cons (kind : Kind) (token : Token) (later : List Token) :
    name kind (token :: later) =
      if token.isIdentifier then some ([Node.leaf kind token.start token.stop], later)
      else none := rfl

@[simp] theorem anyWord_cons (kind : Kind) (token : Token) (later : List Token) :
    anyWord kind (token :: later) =
      if token.isWord then some ([Node.leaf kind token.start token.stop], later) else none := rfl

@[simp] theorem semicolon_cons (token : Token) (later : List Token) :
    semicolon (token :: later) =
      if token.kind = .mark .semicolon then
        some ([Node.leaf .semicolon token.start token.stop], later)
      else if token.afterBreak || token.mark? == some .closeBrace then some ([], token :: later)
      else none := by
  rw [semicolon, first_cons, mark_cons]
  by_cases ends : token.kind = .mark .semicolon
  · rw [if_pos ends, if_pos ends]
    rfl
  · rw [if_neg ends, if_neg ends]
    simp only [first_cons, test_apply]
    by_cases omitted : (token.afterBreak || token.mark? == some .closeBrace) = true
    · rw [if_pos omitted]
    · rw [if_neg omitted]
      rfl

@[simp] theorem sameLine_cons (token : Token) (later : List Token) :
    sameLine (token :: later) = if token.afterBreak then none else some ([], token :: later) := by
  rw [sameLine, test_apply]
  by_cases breaks : token.afterBreak = true
  · simp [breaks]
  · simp [breaks]

@[simp] theorem closeBrace_cons (left : List Node) (token : Token) (later : List Token) :
    closeBrace left (token :: later) =
      if token.kind = .mark .closeBrace then
        some (left ++ [Node.leaf .punctuation token.start token.stop], later)
      else none := by
  rw [closeBrace.eq_2 left (token :: later) nofun, map_apply, mark_cons]
  by_cases closes : token.kind = .mark .closeBrace
  · rw [if_pos closes, if_pos closes]
    rfl
  · rw [if_neg closes, if_neg closes]

@[simp] theorem braced_apply (kind : Kind) (item : Phrase) (tokens : List Token) :
    braced kind item tokens =
      match seq
        [mark .openBrace, many (first [item, seq [notAhead (mark .closeBrace), stray]])]
        tokens with
      | none => none
      | some (left, rest) =>
        match closeBrace left rest with
        | none => none
        | some (nodes, after) => some ([Node.branch kind nodes], after) := by
  rw [braced, map_apply, andThen_apply]
  cases seq _ tokens <;> rfl

/-- A choice between single tokens takes one token, or does not fit. -/
theorem first_leaf_cons {ps : List Phrase} (leaves : ∀ p ∈ ps, ∃ kind passes, p = leaf kind passes)
    (token : Token) (later : List Token) :
    first ps (token :: later) = none ∨ ∃ nodes, first ps (token :: later) = some (nodes, later) := by
  induction ps with
  | nil => exact .inl rfl
  | cons p ps ih =>
    obtain ⟨⟨kind, passes, rfl⟩, others⟩ := List.forall_mem_cons.mp leaves
    rw [first_cons, leaf_cons]
    by_cases fits : passes token = true
    · exact .inr ⟨_, by rw [if_pos fits]⟩
    · rw [if_neg fits]
      exact ih others

/-- A word is no modifier in front of tokens that no name begins. -/
theorem modifier_eq_none {ps : List Phrase} {q : Phrase} {token : Token} {later : List Token}
    (leaves : ∀ p ∈ ps, ∃ kind passes, p = leaf kind passes) (no_name : q later = none) :
    seq [first ps, ahead q] (token :: later) = none := by
  rw [seq_cons]
  rcases first_leaf_cons leaves token later with none | ⟨nodes, some⟩
  · rw [none]
  · rw [some]
    simp [no_name]

/-! ### Groups in parentheses -/

@[simp] theorem groupThen_cons (p : Phrase) (token : Token) (later : List Token) :
    groupThen p (token :: later) =
      if token.kind = .mark .openParen then
        match skipGroup later.length 0 later with
        | some after => if (p after).isSome then some ([], token :: later) else none
        | none => none
      else none := by
  obtain ⟨kind, start, stop, afterBreak⟩ := token
  rw [groupThen, test_apply]
  by_cases opens : kind = .mark .openParen
  · subst opens
    simp only [Token.mark?, beq_self_eq_true, Bool.true_and, if_true]
    cases skipGroup later.length 0 later <;> rfl
  · have other : (Token.mark? ⟨kind, start, stop, afterBreak⟩ == some .openParen) = false := by
      cases kind <;> simp_all [Token.mark?]
    rw [if_neg opens]
    simp [other]

end Phrase

end ModelGrid.Syntax
