import ModelGrid.Json.Reader
import Mathlib.Data.List.Basic
import Mathlib.Data.List.TakeDrop

/-!
# The grammar of JSON

What a text writes is said apart from how it is read: a relation holds of a text, of what its front
writes, and of the rest.  Here are the relations of white space, numbers and strings, and that each of
them is read as it is written.

Two things make the reading of a text unique though the grammar alone would not.  A number goes on as
far as it can, and so it is followed by what may follow a value.  An escape that names the first half
of a surrogate pair makes a pair with an escape behind it that names the second half, and stands for no
character only if there is none.

## Main definitions

* `Json.Spaces`: the rest of a text is behind white space.
* `Json.IsNumber`, `Json.Follows`: what is a number, and what may stand behind a value.
* `Json.WritesUnit`, `Json.WritesTail`: the front of a text writes one character of a string, and the
  rest of a string.

## Main results

* `Json.number?_eq_some`, `Json.number?_append`: numbers are read as they are written.
* `Json.unit?_eq_some`, `Json.string?_eq_some`: the characters of strings and the strings are.
-/

namespace ModelGrid.Json

/-! ### White space -/

section Space

variable {cs start rest : List Char}

/-- There is white space in front of the rest, or nothing. -/
def Spaces (cs rest : List Char) : Prop :=
  ∃ space, (∀ c ∈ space, isSpace c = true) ∧ cs = space ++ rest

theorem Spaces.refl (cs : List Char) : Spaces cs cs := ⟨[], by simp, rfl⟩

theorem Spaces.trans (first : Spaces cs start) (second : Spaces start rest) : Spaces cs rest := by
  obtain ⟨front, blank, rfl⟩ := first
  obtain ⟨back, blank', rfl⟩ := second
  refine ⟨front ++ back, fun c mem => ?_, by simp⟩
  rcases List.mem_append.mp mem with mem | mem
  · exact blank c mem
  · exact blank' c mem

theorem Spaces.length_le (space : Spaces cs rest) : rest.length ≤ cs.length := by
  obtain ⟨front, -, rfl⟩ := space
  simp

theorem spaces_skipSpace (cs : List Char) : Spaces cs (skipSpace cs) :=
  ⟨cs.takeWhile isSpace, List.all_eq_true.mp List.all_takeWhile,
    List.takeWhile_append_dropWhile.symm⟩

/-- White space is skipped up to what is none. -/
theorem Spaces.skipSpace_eq (h : Spaces cs rest) (begins : ∀ c ∈ rest.head?, isSpace c = false) :
    skipSpace cs = rest := by
  obtain ⟨space, blank, rfl⟩ := h
  rw [skipSpace, List.dropWhile_append_of_pos blank]
  cases rest with
  | nil => rfl
  | cons c rest => exact List.dropWhile_cons_of_neg (by simp [begins c rfl])

theorem skipSpace_head (cs : List Char) : ∀ c ∈ (skipSpace cs).head?, isSpace c = false := by
  intro c mem
  have stops := List.head?_dropWhile_not isSpace cs
  rw [skipSpace, Option.mem_def] at mem
  rw [mem] at stops
  simpa using stops

/-- The next mark is found behind white space. -/
theorem Spaces.skipSpace_mark {c : Char} (space : Spaces cs (c :: rest)) (mark : isSpace c = false) :
    skipSpace cs = c :: rest :=
  space.skipSpace_eq fun c' mem => by cases mem; exact mark

theorem skipSpace_skipSpace (cs : List Char) : skipSpace (skipSpace cs) = skipSpace cs :=
  (Spaces.refl _).skipSpace_eq (skipSpace_head cs)

end Space

/-! ### Numbers -/

def IsDigits (cs : List Char) : Prop :=
  cs ≠ [] ∧ ∀ c ∈ cs, c.isDigit = true

/-- A zero, or digits of which the first is none. -/
def IsWhole (cs : List Char) : Prop :=
  cs = ['0'] ∨ IsDigits cs ∧ cs.head? ≠ some '0'

/-- Nothing, or a point and digits. -/
def IsPlaces (cs : List Char) : Prop :=
  cs = [] ∨ ∃ digits, IsDigits digits ∧ cs = '.' :: digits

/-- Nothing, or a letter, a sign that may be left out, and digits. -/
def IsExponent (cs : List Char) : Prop :=
  cs = [] ∨ ∃ e sign digits, (e = 'e' ∨ e = 'E') ∧ (sign = [] ∨ sign = ['+'] ∨ sign = ['-']) ∧
    IsDigits digits ∧ cs = e :: (sign ++ digits)

/-- A whole part, with a minus in front or not, with places and an exponent behind it or not. -/
def IsNumber (cs : List Char) : Prop :=
  ∃ sign whole places exponent, (sign = [] ∨ sign = ['-']) ∧ IsWhole whole ∧ IsPlaces places ∧
    IsExponent exponent ∧ cs = sign ++ whole ++ places ++ exponent

/-- What the text begins with is no digit. -/
def NoDigit (rest : List Char) : Prop := ∀ c ∈ rest.head?, c.isDigit = false

/-- The text may stand behind a value: nothing, white space, a comma or a closing bracket. -/
def Follows (rest : List Char) : Prop :=
  ∀ c ∈ rest.head?, isSpace c = true ∨ c = ',' ∨ c = ']' ∨ c = '\x7d'

section Numbers

variable {cs rest digits whole places exponent : List Char}

theorem digits?_eq_some (read : digits? cs = some (digits, rest)) :
    IsDigits digits ∧ cs = digits ++ rest := by
  rw [digits?, List.span_eq_takeWhile_dropWhile] at read
  split at read
  next => cases read
  next found nonempty =>
    cases read
    refine ⟨⟨fun empty => nonempty _ (by rw [empty]), List.all_eq_true.mp List.all_takeWhile⟩,
      List.takeWhile_append_dropWhile.symm⟩

theorem digits?_append (is_digits : IsDigits digits) (stops : NoDigit rest) :
    digits? (digits ++ rest) = some (digits, rest) := by
  obtain ⟨ne, all⟩ := is_digits
  have taken : (digits ++ rest).span Char.isDigit = (digits, rest) := by
    have stop : rest.takeWhile Char.isDigit = [] ∧ rest.dropWhile Char.isDigit = rest := by
      cases rest with
      | nil => exact ⟨rfl, rfl⟩
      | cons c rest => simp [stops c rfl]
    rw [List.span_eq_takeWhile_dropWhile, List.takeWhile_append_of_pos all,
      List.dropWhile_append_of_pos all, stop.1, stop.2, List.append_nil]
  rw [digits?, taken]
  cases digits with
  | nil => exact absurd rfl ne
  | cons d digits => rfl

theorem whole?_eq_some (read : whole? cs = some (whole, rest)) :
    IsWhole whole ∧ cs = whole ++ rest := by
  rw [whole?.eq_def] at read
  split at read
  next =>
    cases read
    exact ⟨.inl rfl, rfl⟩
  next not_zero =>
    obtain ⟨is_digits, rfl⟩ := digits?_eq_some read
    refine ⟨.inr ⟨is_digits, fun zero => ?_⟩, rfl⟩
    obtain ⟨more, rfl⟩ := List.head?_eq_some_iff.mp zero
    exact not_zero (more ++ rest) rfl

theorem whole?_append (is_whole : IsWhole whole) (stops : NoDigit rest) :
    whole? (whole ++ rest) = some (whole, rest) := by
  rcases is_whole with rfl | ⟨is_digits, not_zero⟩
  · rfl
  · rw [whole?.eq_def]
    split
    next more eq =>
      cases whole with
      | nil => exact absurd rfl is_digits.1
      | cons c whole =>
        cases eq
        exact absurd rfl not_zero
    next => exact digits?_append is_digits stops

theorem places?_eq_some (read : places? cs = some (places, rest)) :
    IsPlaces places ∧ cs = places ++ rest := by
  rw [places?.eq_def] at read
  split at read
  next =>
    obtain ⟨⟨digits, after⟩, found, eq⟩ := Option.map_eq_some_iff.mp read
    cases eq
    obtain ⟨is_digits, rfl⟩ := digits?_eq_some found
    exact ⟨.inr ⟨digits, is_digits, rfl⟩, rfl⟩
  next =>
    cases read
    exact ⟨.inl rfl, rfl⟩

theorem places?_append (is_places : IsPlaces places) (stops : NoDigit rest)
    (no_point : rest.head? ≠ some '.') : places? (places ++ rest) = some (places, rest) := by
  rcases is_places with rfl | ⟨digits, is_digits, rfl⟩
  · rw [List.nil_append, places?.eq_def]
    split
    next => exact absurd rfl no_point
    next => rfl
  · rw [List.cons_append, places?, digits?_append is_digits stops]
    rfl

theorem exponent?_eq_some (read : exponent? cs = some (exponent, rest)) :
    IsExponent exponent ∧ cs = exponent ++ rest := by
  rw [exponent?.eq_def] at read
  split at read
  next e cs =>
    split at read
    next letter =>
      have letter' : e = 'e' ∨ e = 'E' := by simpa using letter
      split at read
      next sign more =>
        split at read
        next signed =>
          have signed' : sign = '+' ∨ sign = '-' := by simpa using signed
          obtain ⟨⟨digits, after⟩, found, eq⟩ := Option.map_eq_some_iff.mp read
          cases eq
          obtain ⟨is_digits, rfl⟩ := digits?_eq_some found
          refine ⟨.inr ⟨e, [sign], digits, letter', .inr ?_, is_digits, rfl⟩, rfl⟩
          rcases signed' with rfl | rfl
          · exact .inl rfl
          · exact .inr rfl
        next =>
          obtain ⟨⟨digits, after⟩, found, eq⟩ := Option.map_eq_some_iff.mp read
          cases eq
          obtain ⟨is_digits, eq⟩ := digits?_eq_some found
          exact ⟨.inr ⟨e, [], digits, letter', .inl rfl, is_digits, rfl⟩, by rw [eq]; rfl⟩
      next => cases read
    next =>
      cases read
      exact ⟨.inl rfl, rfl⟩
  next =>
    cases read
    exact ⟨.inl rfl, rfl⟩

theorem exponent?_append (is_exponent : IsExponent exponent) (stops : NoDigit rest)
    (no_letter : ∀ c ∈ rest.head?, c ≠ 'e' ∧ c ≠ 'E') :
    exponent? (exponent ++ rest) = some (exponent, rest) := by
  rcases is_exponent with rfl | ⟨e, sign, digits, letter, signed, is_digits, rfl⟩
  · cases rest with
    | nil => rfl
    | cons c rest =>
      obtain ⟨not_small, not_large⟩ := no_letter c rfl
      simp [exponent?, not_small, not_large]
  · have letter' : (e == 'e' || e == 'E') = true := by simpa using letter
    have read := digits?_append is_digits stops
    rcases signed with rfl | rfl | rfl
    · obtain ⟨d, more, rfl⟩ := List.exists_cons_of_ne_nil is_digits.1
      have digit := is_digits.2 d List.mem_cons_self
      have unsigned : ¬ (d == '+' || d == '-') = true := by
        intro sign
        have signs : d = '+' ∨ d = '-' := by simpa using sign
        rcases signs with rfl | rfl <;> cases digit
      rw [List.cons_append] at read
      simp only [List.nil_append, List.cons_append, exponent?, if_pos letter', if_neg unsigned, read]
      rfl
    · simp [exponent?, letter', read]
    · simp [exponent?, letter', read]

/-- A number is read part by part, behind its sign. -/
theorem number?_append_eq {sign unsigned : List Char}
    (signed : sign = ['-'] ∨ sign = [] ∧ unsigned.head? ≠ some '-') :
    number? (sign ++ unsigned) =
      (whole? unsigned).bind fun w => (places? w.2).bind fun p => (exponent? p.2).map fun e =>
        (sign ++ w.1 ++ p.1 ++ e.1, e.2) := by
  have parts (sign unsigned : List Char) {read : Option (List Char × List Char)}
      (is_read : read = (whole? unsigned).bind fun w => (places? w.2).bind fun p =>
        (exponent? p.2).bind fun e => some (sign ++ w.1 ++ p.1 ++ e.1, e.2)) :
      read = (whole? unsigned).bind fun w => (places? w.2).bind fun p =>
        (exponent? p.2).map fun e => (sign ++ w.1 ++ p.1 ++ e.1, e.2) := by
    simp only [is_read, Option.map_eq_bind, Function.comp_def]
  rcases signed with rfl | ⟨rfl, no_minus⟩
  · refine parts ['-'] unsigned ?_
    rw [List.singleton_append, number?]
    rfl
  · refine parts [] unsigned ?_
    rw [List.nil_append, number?]
    · rfl
    · rintro rest rfl
      exact no_minus rfl

/-- What is read as a number is one. -/
theorem number?_eq_some {spelling : List Char} (read : number? cs = some (spelling, rest)) :
    IsNumber spelling ∧ cs = spelling ++ rest := by
  obtain ⟨sign, unsigned, signed, rfl⟩ : ∃ sign unsigned,
      (sign = ['-'] ∨ sign = [] ∧ unsigned.head? ≠ some '-') ∧ cs = sign ++ unsigned := by
    by_cases minus : cs.head? = some '-'
    · obtain ⟨unsigned, rfl⟩ := List.head?_eq_some_iff.mp minus
      exact ⟨['-'], unsigned, .inl rfl, rfl⟩
    · exact ⟨[], cs, .inr ⟨rfl, minus⟩, rfl⟩
  rw [number?_append_eq signed] at read
  obtain ⟨⟨whole, afterWhole⟩, whole_read, read⟩ := Option.bind_eq_some_iff.mp read
  obtain ⟨⟨places, afterPlaces⟩, places_read, read⟩ := Option.bind_eq_some_iff.mp read
  obtain ⟨⟨exponent, after⟩, exponent_read, eq⟩ := Option.map_eq_some_iff.mp read
  cases eq
  obtain ⟨is_whole, rfl⟩ := whole?_eq_some whole_read
  obtain ⟨is_places, rfl⟩ := places?_eq_some places_read
  obtain ⟨is_exponent, rfl⟩ := exponent?_eq_some exponent_read
  have signed' : sign = [] ∨ sign = ['-'] := (signed.imp id And.left).symm
  exact ⟨⟨sign, whole, places, exponent, signed', is_whole, is_places, is_exponent, rfl⟩, by simp⟩

theorem follows_mark {c : Char} (mark : c = ',' ∨ c = ']' ∨ c = '\x7d') : Follows (c :: rest) := by
  intro c' mem
  cases mem
  exact .inr mark

/-- White space may stand before what may stand behind a value. -/
theorem Spaces.follows (space : Spaces cs rest) (follows : Follows rest) : Follows cs := by
  obtain ⟨front, blank, rfl⟩ := space
  intro c mem
  cases front with
  | nil => exact follows c mem
  | cons first front =>
    cases mem
    exact .inl (blank c List.mem_cons_self)

/-- What follows a value does not go on with a number. -/
theorem Follows.stops (follows : Follows rest) :
    ∀ c ∈ rest.head?, c.isDigit = false ∧ c ≠ '.' ∧ c ≠ 'e' ∧ c ≠ 'E' := by
  intro c mem
  have cases_c : c = ' ' ∨ c = '\n' ∨ c = '\t' ∨ c = '\r' ∨ c = ',' ∨ c = ']' ∨ c = '\x7d' := by
    simpa [isSpace, or_assoc] using follows c mem
  rcases cases_c with rfl | rfl | rfl | rfl | rfl | rfl | rfl <;> decide

theorem IsNumber.exists_cons {spelling : List Char} (is_number : IsNumber spelling) :
    ∃ c more, spelling = c :: more ∧ (c = '-' ∨ c.isDigit = true) := by
  obtain ⟨sign, whole, places, exponent, rfl | rfl, is_whole, -, -, rfl⟩ := is_number
  · rcases is_whole with rfl | ⟨⟨ne, digits⟩, -⟩
    · exact ⟨'0', _, rfl, .inr rfl⟩
    · obtain ⟨d, more, rfl⟩ := List.exists_cons_of_ne_nil ne
      exact ⟨d, _, rfl, .inr (digits d List.mem_cons_self)⟩
  · exact ⟨'-', _, rfl, .inl rfl⟩

/-- A number is read to its end. -/
theorem number?_append {spelling : List Char} (is_number : IsNumber spelling)
    (follows : Follows rest) : number? (spelling ++ rest) = some (spelling, rest) := by
  obtain ⟨sign, whole, places, exponent, signed, is_whole, is_places, is_exponent, rfl⟩ := is_number
  have stops := follows.stops
  -- what is behind each part does not go on with it
  have behind_places : ∀ c ∈ (exponent ++ rest).head?, c.isDigit = false ∧ c ≠ '.' := by
    intro c mem
    rcases is_exponent with rfl | ⟨e, _, _, rfl | rfl, _, _, rfl⟩
    · exact ⟨(stops c mem).1, (stops c mem).2.1⟩
    · cases mem
      decide
    · cases mem
      decide
  have behind_whole : NoDigit (places ++ (exponent ++ rest)) := by
    intro c mem
    rcases is_places with rfl | ⟨_, _, rfl⟩
    · exact (behind_places c mem).1
    · cases mem
      decide
  have no_minus : sign = ['-'] ∨ sign = [] ∧
      (whole ++ (places ++ (exponent ++ rest))).head? ≠ some '-' := by
    rcases signed with rfl | rfl
    · refine .inr ⟨rfl, ?_⟩
      rcases is_whole with rfl | ⟨⟨ne, digits⟩, _⟩
      · simp
      · obtain ⟨d, more, rfl⟩ := List.exists_cons_of_ne_nil ne
        intro minus
        cases minus
        cases digits '-' List.mem_cons_self
    · exact .inl rfl
  have split : sign ++ whole ++ places ++ exponent ++ rest =
      sign ++ (whole ++ (places ++ (exponent ++ rest))) := by simp
  have no_point : (exponent ++ rest).head? ≠ some '.' := fun point => (behind_places _ point).2 rfl
  rw [split, number?_append_eq no_minus, whole?_append is_whole behind_whole, Option.bind_some,
    places?_append is_places (fun c mem => (behind_places c mem).1) no_point, Option.bind_some,
    exponent?_append is_exponent (fun c mem => (stops c mem).1) fun c mem => (stops c mem).2.2]
  rfl

end Numbers

/-! ### Strings -/

/-- The text begins with an escape that names the second half of a surrogate pair. -/
def BeginsTrailing (cs : List Char) : Prop :=
  ∃ n more after, cs = '\\' :: 'u' :: more ∧ hexQuad? more = some (n, after) ∧
    isTrailingSurrogate n = true

/-- The front of a text writes one character of a string, or half of a surrogate pair. -/
inductive WritesUnit : List Char → Option Char → List Char → Prop
  | plain {c rest} (no_quote : c ≠ '"') (no_escape : c ≠ '\\') (printed : 0x20 ≤ c.toNat) :
      WritesUnit (c :: rest) (some c) rest
  | escape {c image rest} (names : escaped? c = some image) :
      WritesUnit ('\\' :: c :: rest) (some image) rest
  | code {cs n rest} (quad : hexQuad? cs = some (n, rest))
      (no_half : isLeadingSurrogate n = false ∧ isTrailingSurrogate n = false) :
      WritesUnit ('\\' :: 'u' :: cs) (some (Char.ofNat n)) rest
  | pair {cs n more m rest} (quad : hexQuad? cs = some (n, '\\' :: 'u' :: more))
      (leading : isLeadingSurrogate n = true) (next : hexQuad? more = some (m, rest))
      (trailing : isTrailingSurrogate m = true) :
      WritesUnit ('\\' :: 'u' :: cs)
        (some (Char.ofNat (0x10000 + (n - 0xD800) * 0x400 + (m - 0xDC00)))) rest
  | half {cs n rest} (quad : hexQuad? cs = some (n, rest))
      (alone : isLeadingSurrogate n = true ∧ ¬ BeginsTrailing rest ∨ isTrailingSurrogate n = true) :
      WritesUnit ('\\' :: 'u' :: cs) none rest

/-- The front of a text writes the rest of a string, up to its closing quote. -/
inductive WritesTail : List Char → List (Option Char) → List Char → Prop
  | close {rest} : WritesTail ('"' :: rest) [] rest
  | unit {cs unit after units rest} (first : WritesUnit cs unit after)
      (tail : WritesTail after units rest) : WritesTail cs (unit :: units) rest

/-- The text of a string, if it has no half of a surrogate pair. -/
def textOfUnits (units : List (Option Char)) : Option String :=
  if units.all Option.isSome then some (String.ofList (units.filterMap id)) else none

section Strings

variable {cs rest after : List Char} {unit : Option Char} {units : List (Option Char)} {n fuel : Nat}

theorem not_trailing_of_leading (leading : isLeadingSurrogate n = true) :
    isTrailingSurrogate n = false := by
  simp only [isLeadingSurrogate, isTrailingSurrogate, Bool.and_eq_true, decide_eq_true_eq,
    Bool.and_eq_false_iff, decide_eq_false_iff_not] at leading ⊢
  omega

theorem trailingEscape?_eq_some : trailingEscape? cs = some (n, after) ↔
    ∃ more, cs = '\\' :: 'u' :: more ∧ hexQuad? more = some (n, after) ∧
      isTrailingSurrogate n = true := by
  constructor
  · intro read
    rw [trailingEscape?.eq_def] at read
    split at read
    next more =>
      split at read
      next m final quad =>
        split at read
        next trailing =>
          cases read
          exact ⟨more, rfl, quad, trailing⟩
        next => cases read
      next => cases read
    next => cases read
  · rintro ⟨more, rfl, quad, trailing⟩
    rw [trailingEscape?, quad]
    exact if_pos trailing

theorem beginsTrailing_iff :
    BeginsTrailing cs ↔ ∃ n after, trailingEscape? cs = some (n, after) := by
  simp only [BeginsTrailing, trailingEscape?_eq_some]
  exact ⟨fun ⟨n, more, after, facts⟩ => ⟨n, after, more, facts⟩,
    fun ⟨n, after, more, facts⟩ => ⟨n, more, after, facts⟩⟩

/-- What the number in an escape is read as is what the escape writes. -/
theorem ofCode_eq_iff (quad : hexQuad? cs = some (n, after)) :
    ofCode n after = (unit, rest) ↔ WritesUnit ('\\' :: 'u' :: cs) unit rest := by
  constructor
  · intro read
    rw [ofCode] at read
    split at read
    next leading =>
      split at read
      next m final found =>
        cases read
        obtain ⟨more, rfl, next, trailing⟩ := trailingEscape?_eq_some.mp found
        exact .pair quad leading next trailing
      next missed =>
        cases read
        refine .half quad (.inl ⟨leading, fun begins => ?_⟩)
        obtain ⟨m, final, found⟩ := beginsTrailing_iff.mp begins
        rw [missed] at found
        cases found
    next not_leading =>
      split at read
      next trailing =>
        cases read
        exact .half quad (.inr trailing)
      next not_trailing =>
        cases read
        exact .code quad ⟨Bool.eq_false_iff.mpr not_leading, Bool.eq_false_iff.mpr not_trailing⟩
  · intro writes
    cases writes with
    | plain _ no_escape _ => exact absurd rfl no_escape
    | escape names => cases names
    | code quad' no_half =>
      rw [quad] at quad'
      cases quad'
      simp [ofCode, no_half]
    | pair quad' leading next trailing =>
      rw [quad] at quad'
      cases quad'
      have found := trailingEscape?_eq_some.mpr ⟨_, rfl, next, trailing⟩
      rw [ofCode, if_pos leading, found]
    | half quad' alone =>
      rw [quad] at quad'
      cases quad'
      rcases alone with ⟨leading, none_behind⟩ | trailing
      · have missed : trailingEscape? rest = none := by
          rw [Option.eq_none_iff_forall_ne_some]
          rintro ⟨m, final⟩ found
          exact none_behind (beginsTrailing_iff.mpr ⟨m, final, found⟩)
        rw [ofCode, if_pos leading, missed]
      · have not_leading : ¬ isLeadingSurrogate n = true := fun leading => by
          rw [not_trailing_of_leading leading] at trailing
          cases trailing
        rw [ofCode, if_neg not_leading, if_pos trailing]

/-- **One character of a string** is read as it is written. -/
theorem unit?_eq_some (no_quote : cs.head? ≠ some '"') :
    unit? cs = some (unit, rest) ↔ WritesUnit cs unit rest := by
  rw [unit?.eq_def]
  split
  next =>
    constructor
    · nofun
    · nofun
  next cs =>
    cases quad : hexQuad? cs with
    | none =>
      constructor
      · nofun
      · intro writes
        cases writes with
        | plain _ no_escape _ => exact absurd rfl no_escape
        | escape names => cases names
        | code quad' _ => simp [quad] at quad'
        | pair quad' _ _ _ => simp [quad] at quad'
        | half quad' _ => simp [quad] at quad'
    | some found =>
      rw [Option.map_some, Option.some_inj]
      exact ofCode_eq_iff quad
  next c cs no_code =>
    constructor
    · intro read
      obtain ⟨image, names, eq⟩ := Option.map_eq_some_iff.mp read
      cases eq
      exact .escape names
    · intro writes
      cases writes with
      | plain _ no_escape _ => exact absurd rfl no_escape
      | escape names => rw [names]; rfl
      | code => exact (no_code rfl).elim
      | pair => exact (no_code rfl).elim
      | half => exact (no_code rfl).elim
  next c cs no_code no_escape =>
    constructor
    · intro read
      split at read
      next => cases read
      next printed =>
        cases read
        obtain ⟨not_escape, printed⟩ : c ≠ '\\' ∧ 0x20 ≤ c.toNat := by simpa using printed
        exact .plain (fun quote => no_quote (by rw [quote]; rfl)) not_escape printed
    · intro writes
      cases writes with
      | plain _ not_escape printed => simp [not_escape, printed]
      | escape => exact (no_escape _ _ rfl rfl).elim
      | code => exact (no_code _ rfl rfl).elim
      | pair => exact (no_code _ rfl rfl).elim
      | half => exact (no_code _ rfl rfl).elim

theorem WritesUnit.no_quote (writes : WritesUnit cs unit rest) : cs.head? ≠ some '"' := by
  cases writes with
  | plain no_quote _ _ => simpa using no_quote
  | _ => simp

theorem length_hexQuad? (quad : hexQuad? cs = some (n, rest)) : rest.length < cs.length := by
  rw [hexQuad?.eq_def] at quad
  split at quad
  next =>
    split at quad
    next =>
      cases quad
      simp only [List.length_cons]
      omega
    next => cases quad
  next => cases quad

theorem WritesUnit.length_lt (writes : WritesUnit cs unit rest) : rest.length < cs.length := by
  cases writes with
  | plain => simp
  | escape => simp only [List.length_cons]; omega
  | code quad =>
    have shorter := length_hexQuad? quad
    simp only [List.length_cons]
    omega
  | pair quad _ next _ =>
    have shorter := length_hexQuad? quad
    have shorter' := length_hexQuad? next
    simp only [List.length_cons] at shorter ⊢
    omega
  | half quad =>
    have shorter := length_hexQuad? quad
    simp only [List.length_cons]
    omega

theorem WritesTail.length_lt (writes : WritesTail cs units rest) : rest.length < cs.length := by
  induction writes with
  | close => simp
  | unit first _ ih => exact Nat.lt_trans ih first.length_lt

/-- What is read as the rest of a string is one. -/
theorem writesTail_of_stringTail? (read : stringTail? fuel cs = some (units, rest)) :
    WritesTail cs units rest := by
  induction fuel generalizing cs units with
  | zero => cases read
  | succ fuel ih =>
    rw [stringTail?.eq_def] at read
    split at read
    next => contradiction
    next =>
      cases read
      exact .close
    next cs _ _ fuel' fuel_eq no_close =>
      cases fuel_eq
      split at read
      next => cases read
      next unit after found =>
        obtain ⟨⟨units, final⟩, tail, eq⟩ := Option.map_eq_some_iff.mp read
        cases eq
        have no_quote : cs.head? ≠ some '"' := fun quote =>
          have ⟨more, cs_eq⟩ := List.head?_eq_some_iff.mp quote
          no_close more cs_eq
        exact .unit ((unit?_eq_some no_quote).mp found) (ih tail)

/-- The rest of a string is read to its closing quote. -/
theorem WritesTail.stringTail?_eq (writes : WritesTail cs units rest) (enough : cs.length ≤ fuel) :
    stringTail? fuel cs = some (units, rest) := by
  induction writes generalizing fuel with
  | close =>
    obtain ⟨fuel, rfl⟩ : ∃ k, fuel = k + 1 := ⟨fuel - 1, by simp at enough; omega⟩
    rfl
  | @unit cs unit after units rest first _ ih =>
    have shorter := first.length_lt
    obtain ⟨fuel, rfl⟩ : ∃ k, fuel = k + 1 := ⟨fuel - 1, by omega⟩
    rw [stringTail?, (unit?_eq_some first.no_quote).mpr first]
    · simp only [ih (by omega : after.length ≤ fuel), Option.map_some]
    · rintro more rfl
      exact first.no_quote rfl

/-- **A string** is read as it is written. -/
theorem string?_eq_some {text : Option String} : string? cs = some (text, rest) ↔
    ∃ units, WritesTail cs units rest ∧ text = textOfUnits units := by
  rw [string?, Option.map_eq_some_iff]
  constructor
  · rintro ⟨⟨units, after⟩, read, eq⟩
    cases eq
    exact ⟨units, writesTail_of_stringTail? read, rfl⟩
  · rintro ⟨units, writes, rfl⟩
    exact ⟨(units, rest), writes.stringTail?_eq (Nat.le_refl _), rfl⟩

end Strings

end ModelGrid.Json
