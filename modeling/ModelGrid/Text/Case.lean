import ModelGrid.Text.CaseTable

/-!
# Letter case of texts

Upper and lower case of texts, by the full mappings of Unicode: a character may have a form of
several characters, and a sigma at the end of a word has a lower case form of its own.

## Main definitions

* `Text.upperForm`, `Text.lowerForm`: the forms of one character.
* `Text.toUpper`, `Text.toLower`: the forms of a text.
* `Text.isLowercase`: the property `Lowercase`.
-/

namespace ModelGrid.Text

open CaseTable

/-- Whether the number lies in one of the ranges. -/
def inRanges (n : Nat) : List (Nat × Nat) → Bool
  | [] => false
  | (first, last) :: rest => (first ≤ n && n ≤ last) || inRanges n rest

/-- The form of a code point by a table of ranges. -/
def formIn (n : Nat) : List CaseRange → Option Char
  | [] => none
  | r :: rest =>
    if r.first ≤ n && n ≤ r.last && (n - r.first) % r.step == 0 then
      some (Char.ofNat (r.target + (n - r.first)))
    else formIn n rest

/-- The form of a character by the tables of one of the two cases. -/
def form (ranges : List CaseRange) (expansions : List (Nat × List Nat)) (c : Char) : List Char :=
  match formIn c.toNat ranges with
  | some image => [image]
  | none =>
    match expansions.find? fun entry => entry.1 == c.toNat with
    | some (_, image) => image.map Char.ofNat
    | none => [c]

/-- The upper case form of a character. -/
def upperForm (c : Char) : List Char :=
  if c.toNat < 0x80 then [c.toUpper] else form upper upperExpansions c

/-- The lower case form of a character, away from the end of a word. -/
def lowerForm (c : Char) : List Char :=
  if c.toNat < 0x80 then [c.toLower] else form lower lowerExpansions c

/-- The upper case form of a text. -/
def toUpper (cs : List Char) : List Char :=
  cs.flatMap upperForm

/-- Whether the character has one of the three cases. -/
def isCased (c : Char) : Bool := inRanges c.toNat cased

/-- Whether the character is passed over in the search for cased neighbours. -/
def isCaseIgnorable (c : Char) : Bool := inRanges c.toNat ignorable

/-- Whether the next character that is not passed over is cased. -/
def casedAhead (cs : List Char) : Bool :=
  match cs.dropWhile isCaseIgnorable with
  | c :: _ => isCased c
  | [] => false

/-- The lower case form of the rest of a text; `afterCased` tells whether the last character that
is not passed over is cased. -/
def lowerFrom (afterCased : Bool) : List Char → List Char
  | [] => []
  | c :: cs =>
    let image :=
      if c == 'Σ' then (if afterCased && !casedAhead cs then ['ς'] else ['σ']) else lowerForm c
    image ++ lowerFrom (if isCaseIgnorable c then afterCased else isCased c) cs

/-- The lower case form of a text. -/
def toLower (cs : List Char) : List Char :=
  lowerFrom false cs

/-- The property `Lowercase`. -/
def isLowercase (c : Char) : Bool :=
  if c.toNat < 0x80 then c.isLower
  else lowercase.any fun (first, last, step) =>
    first ≤ c.toNat && c.toNat ≤ last && (c.toNat - first) % step == 0

end ModelGrid.Text
