import ModelGrid.Proofs.Syntax.Scan

/-!
# What string literals denote

A string literal denotes a sequence of UTF-16 code units: its characters stand for themselves, apart
from escapes, which begin with a backslash.  Between single quotes a text denotes itself exactly when
there is nothing in it that ends the literal, breaks its line or begins an escape.

That nothing else denotes itself is a matter of length.  Whatever an escape stands for takes up
fewer code units than the escape does, so a text with an escape denotes something shorter.

## Main definitions

* `Text.utf16`: the UTF-16 form of a list of characters.
* `Literal.value?`: what a string literal denotes.

## Main results

* `Literal.value?_eq_utf16_iff`: the texts that denote themselves between single quotes.
-/

namespace ModelGrid

/-- The UTF-16 form of a code point. -/
def Text.codeUnits (point : Nat) : List Nat :=
  if point < 0x10000 then [point]
  else [0xD800 + (point - 0x10000) / 0x400, 0xDC00 + (point - 0x10000) % 0x400]

/-- The UTF-16 form of the characters. -/
def Text.utf16 (cs : List Char) : List Nat :=
  cs.flatMap fun c => Text.codeUnits c.toNat

namespace Syntax.Literal

open Text Lexeme

/-! ### Escapes -/

/-- The number that a hexadecimal digit stands for. -/
def digit? (c : Char) : Option Nat :=
  if c.isDigit then some (c.toNat - '0'.toNat)
  else if 'a' ≤ c ∧ c ≤ 'f' then some (c.toNat - 'a'.toNat + 10)
  else if 'A' ≤ c ∧ c ≤ 'F' then some (c.toNat - 'A'.toNat + 10)
  else none

/-- The number that hexadecimal digits stand for. -/
def number? (digits : List Char) : Option Nat :=
  digits.foldlM (fun high c => (digit? c).map (16 * high + ·)) 0

/-- The code unit that the next `count` digits stand for, with the characters after them. -/
def fixed? (count : Nat) (cs : List Char) : Option (List Nat × List Char) :=
  if cs.length < count then none
  else (number? (cs.take count)).map fun unit => ([unit], cs.drop count)

/-- The code point whose digits stand in front of a closing brace, with the characters after it. -/
def braced? (cs : List Char) : Option (List Nat × List Char) :=
  match cs.takeWhile (· != '\x7d'), cs.dropWhile (· != '\x7d') with
  | d :: ds, _ :: after =>
    match number? (d :: ds) with
    | none => none
    | some point => if point ≤ 0x10FFFF then some (codeUnits point, after) else none
  | _, _ => none

/-- The control character that a letter stands for. -/
def control? : Char → Option Nat
  | 'b' => some 0x08
  | 't' => some 0x09
  | 'n' => some 0x0A
  | 'v' => some 0x0B
  | 'f' => some 0x0C
  | 'r' => some 0x0D
  | _ => none

/-- What an escape stands for, with the characters after it; the backslash has been read.  A digit
other than a lone zero is no escape, and a line that is broken by one goes on behind its end. -/
def escape? : List Char → Option (List Nat × List Char)
  | [] => none
  | c :: cs =>
    match control? c with
    | some unit => some ([unit], cs)
    | none =>
      if c = 'x' then fixed? 2 cs
      else if c = 'u' then if cs.head? = some '\x7b' then braced? cs.tail else fixed? 4 cs
      else if c = '\r' then some ([], if cs.head? = some '\n' then cs.tail else cs)
      else if c ∈ ['\n', '\u2028', '\u2029'] then some ([], cs)
      else if c = '0' ∧ !cs.head?.any Char.isDigit then some ([0x00], cs)
      else if c.isDigit then none
      else some (codeUnits c.toNat, cs)

/-- What the characters between the quotes of a literal denote, in at most `fuel` steps. -/
def bodyUpTo (quote : Char) : Nat → List Char → Option (List Nat)
  | _, [] => some []
  | 0, _ :: _ => none
  | fuel + 1, c :: cs =>
    if c = '\\' then
      match escape? cs with
      | none => none
      | some (units, rest) => (bodyUpTo quote fuel rest).map (units ++ ·)
    else if c = quote ∨ c = '\n' ∨ c = '\r' then none
    else (bodyUpTo quote fuel cs).map (codeUnits c.toNat ++ ·)

/-- What a string literal denotes. -/
def value? : List Char → Option (List Nat)
  | [] => none
  | quote :: cs =>
    if (quote = '\'' ∨ quote = '"') ∧ cs.getLast? = some quote then
      bodyUpTo quote cs.dropLast.length cs.dropLast
    else none

/-! ### Texts that denote themselves -/

theorem length_codeUnits_pos (point : Nat) : 0 < (codeUnits point).length := by
  rw [codeUnits]
  split <;> simp

theorem length_codeUnits_le (point : Nat) : (codeUnits point).length ≤ 2 := by
  rw [codeUnits]
  split <;> simp

theorem utf16_cons (c : Char) (cs : List Char) :
    utf16 (c :: cs) = codeUnits c.toNat ++ utf16 cs := rfl

theorem length_le_utf16 (cs : List Char) : cs.length ≤ (utf16 cs).length := by
  induction cs with
  | nil => exact Nat.le_refl _
  | cons c cs ih =>
    have pos := length_codeUnits_pos c.toNat
    rw [utf16_cons, List.length_append, List.length_cons]
    omega

theorem length_utf16_append (front back : List Char) :
    (utf16 (front ++ back)).length = (utf16 front).length + (utf16 back).length := by
  simp [utf16]

/-- Digits take up no fewer code units than what they stand for. -/
theorem length_le_of_fixed? {count : Nat} {cs rest : List Char} {units : List Nat}
    (pos : 0 < count) (read : fixed? count cs = some (units, rest)) :
    units.length + (utf16 rest).length ≤ (utf16 cs).length := by
  rw [fixed?] at read
  split at read
  · cases read
  · next enough =>
    obtain ⟨unit, -, same⟩ := Option.map_eq_some_iff.mp read
    obtain ⟨rfl, rfl⟩ : [unit] = units ∧ cs.drop count = rest := by simpa using same
    have digits := length_le_utf16 (cs.take count)
    have parts := length_utf16_append (cs.take count) (cs.drop count)
    rw [List.take_append_drop] at parts
    rw [List.length_take] at digits
    simp only [List.length_singleton]
    omega

theorem length_le_of_braced? {cs rest : List Char} {units : List Nat}
    (read : braced? cs = some (units, rest)) :
    units.length + (utf16 rest).length ≤ (utf16 cs).length := by
  rw [braced?] at read
  split at read
  · next d ds brace after digits later =>
    have whole : cs = d :: ds ++ brace :: after := by
      rw [← digits, ← later, List.takeWhile_append_dropWhile]
    split at read
    · cases read
    · next point _ =>
      split at read
      · obtain ⟨rfl, rfl⟩ : codeUnits point = units ∧ after = rest := by simpa using read
        have few := length_codeUnits_le point
        have first := length_codeUnits_pos d.toNat
        have last := length_codeUnits_pos brace.toNat
        rw [whole, length_utf16_append, utf16_cons, utf16_cons, List.length_append,
          List.length_append]
        omega
      · cases read
  · cases read

theorem length_utf16_tail_le (cs : List Char) :
    (utf16 cs.tail).length ≤ (utf16 cs).length := by
  cases cs with
  | nil => exact Nat.le_refl _
  | cons c cs =>
    rw [utf16_cons, List.length_append]
    exact Nat.le_add_left _ _

/-- What an escape stands for takes up no more code units than the escape behind its backslash. -/
theorem length_le_of_escape? {cs rest : List Char} {units : List Nat}
    (read : escape? cs = some (units, rest)) :
    units.length + (utf16 rest).length ≤ (utf16 cs).length := by
  cases cs with
  | nil => cases read
  | cons c cs =>
    have first := length_codeUnits_pos c.toNat
    have tail := length_utf16_tail_le cs
    rw [utf16_cons, List.length_append]
    rw [escape?] at read
    split at read
    case h_1 unit _ =>
      cases read
      simp
      omega
    case h_2 =>
      split_ifs at read
      · have := length_le_of_fixed? (by decide) read
        omega
      · have := length_le_of_braced? read
        omega
      · have := length_le_of_fixed? (by decide) read
        omega
      all_goals
        cases read
        try simp only [List.length_nil, List.length_singleton]
        omega

/-- What stands between quotes denotes no more code units than it has, and fewer if it is not
plain. -/
theorem length_le_of_bodyUpTo {quote : Char} {fuel : Nat} {cs : List Char} {units : List Nat}
    (read : bodyUpTo quote fuel cs = some units) :
    units.length ≤ (utf16 cs).length ∧
      (¬ IsQuoted quote cs → units.length < (utf16 cs).length) := by
  induction fuel generalizing cs units with
  | zero =>
    cases cs with
    | nil =>
      cases read
      exact ⟨Nat.le_refl _, fun escapes => absurd nofun escapes⟩
    | cons c cs => cases read
  | succ fuel ih =>
    cases cs with
    | nil =>
      cases read
      exact ⟨Nat.le_refl _, fun escapes => absurd nofun escapes⟩
    | cons c cs =>
      rw [utf16_cons, List.length_append]
      rw [bodyUpTo] at read
      split_ifs at read with backslash stops
      · -- An escape: its backslash stands for nothing.
        split at read
        · cases read
        · next front rest escape =>
          obtain ⟨back, later, rfl⟩ := Option.map_eq_some_iff.mp read
          have bound := length_le_of_escape? escape
          have tail := (ih later).1
          have pos := length_codeUnits_pos c.toNat
          rw [List.length_append]
          exact ⟨by omega, fun _ => by omega⟩
      · obtain ⟨back, later, rfl⟩ := Option.map_eq_some_iff.mp read
        obtain ⟨le, lt⟩ := ih later
        rw [List.length_append]
        refine ⟨by omega, fun escapes => ?_⟩
        have less := lt fun plain => escapes (List.forall_mem_cons.mpr ⟨?_, plain⟩)
        · omega
        · simp only [not_or] at stops
          exact ⟨stops.1, backslash, stops.2⟩

/-- A plain text denotes itself. -/
theorem bodyUpTo_of_isQuoted {quote : Char} {cs : List Char} (plain : IsQuoted quote cs)
    {fuel : Nat} (enough : cs.length ≤ fuel) : bodyUpTo quote fuel cs = some (utf16 cs) := by
  induction cs generalizing fuel with
  | nil => cases fuel <;> rfl
  | cons c cs ih =>
    obtain ⟨fuel, rfl⟩ : ∃ k, fuel = k + 1 := ⟨fuel - 1, by simp at enough; omega⟩
    obtain ⟨⟨no_quote, no_escape, no_feed, no_return⟩, plain⟩ := List.forall_mem_cons.mp plain
    rw [bodyUpTo, if_neg no_escape, if_neg (by simp [no_quote, no_feed, no_return]),
      ih plain (by simpa using enough)]
    rfl

/-- **Between single quotes** exactly the plain texts denote themselves. -/
theorem value?_eq_utf16_iff (cs : List Char) :
    value? ('\'' :: cs ++ ['\'']) = some (utf16 cs) ↔ IsQuoted '\'' cs := by
  have body : value? ('\'' :: cs ++ ['\'']) = bodyUpTo '\'' cs.length cs := by
    rw [List.cons_append, value?, if_pos ⟨.inl rfl, by simp⟩]
    simp
  rw [body]
  constructor
  · intro read
    by_contra escapes
    have less := (length_le_of_bodyUpTo read).2 escapes
    omega
  · intro plain
    exact bodyUpTo_of_isQuoted plain (Nat.le_refl _)

/-- A tab is denoted by its escape, and not by the text of the escape. -/
example : value? "'a\\tb'".toList = some (utf16 "a\tb".toList) := by decide

end Syntax.Literal

end ModelGrid
