import ModelGrid.Text.Case
import ModelGrid.Text.GraphemeTable

/-!
# Grapheme clusters

A grapheme cluster is what a reader takes for one character: a letter with its accents, a syllable
of Hangul, a flag, or pictures tied by joiners.  The clusters are those of the Unicode rules GB1 to
GB13, conjuncts of Indic scripts left apart.

## Main definitions

* `GraphemeClass`: the classes of characters that the rules speak of.
* `Text.graphemes`: the clusters of a text, in order.
-/

namespace ModelGrid.Text

/-- The classes of characters that the rules speak of. -/
inductive GraphemeClass
  | carriageReturn | lineFeed | control | extend | joiner | spacingMark | prepend
  | leading | vowel | trailing | leadingVowel | leadingVowelTrailing
  | regionalIndicator | pictographic | other
  deriving DecidableEq, Repr

open GraphemeClass GraphemeTable

/-- The class of a character. -/
def graphemeClass (c : Char) : GraphemeClass :=
  let n := c.toNat
  if 0x20 ≤ n && n < 0x7F then other
  else if n == 0x0D then carriageReturn
  else if n == 0x0A then lineFeed
  else if n == 0x200D then joiner
  else if inRanges n GraphemeTable.control then .control
  else if inRanges n GraphemeTable.extend then .extend
  else if inRanges n GraphemeTable.spacingMark then .spacingMark
  else if inRanges n GraphemeTable.prepend then .prepend
  else if 0x1F1E6 ≤ n && n ≤ 0x1F1FF then regionalIndicator
  else if (0x1100 ≤ n && n ≤ 0x115F) || (0xA960 ≤ n && n ≤ 0xA97C) then leading
  else if (0x1160 ≤ n && n ≤ 0x11A7) || (0xD7B0 ≤ n && n ≤ 0xD7C6) then vowel
  else if (0x11A8 ≤ n && n ≤ 0x11FF) || (0xD7CB ≤ n && n ≤ 0xD7FB) then trailing
  else if 0xAC00 ≤ n && n ≤ 0xD7A3 then
    if (n - 0xAC00) % 28 == 0 then leadingVowel else leadingVowelTrailing
  else if inRanges n GraphemeTable.pictographic then .pictographic
  else other

/-- What the rules need to know of the characters behind a place in the text. -/
structure GraphemeState where
  /-- The class of the last character. -/
  last : GraphemeClass
  /-- Whether the characters end in a picture with extenders, before the last character. -/
  picture : Bool
  /-- Whether the number of regional indicators at the end is odd. -/
  oddIndicators : Bool

/-- The state at a character of the class that begins a text. -/
def GraphemeState.start (c : GraphemeClass) : GraphemeState :=
  { last := c, picture := false, oddIndicators := c == regionalIndicator }

/-- The state after one more character of the class. -/
def GraphemeState.next (s : GraphemeState) (c : GraphemeClass) : GraphemeState :=
  { last := c
    picture := s.last == .pictographic || (s.last == .extend && s.picture)
    oddIndicators := c == regionalIndicator && !(s.last == regionalIndicator && s.oddIndicators) }

/-- Whether a character of the class belongs to the cluster of the character before it. -/
def GraphemeState.joins (s : GraphemeState) (c : GraphemeClass) : Bool :=
  match s.last, c with
  | carriageReturn, lineFeed => true
  | carriageReturn, _ | lineFeed, _ | .control, _ => false
  | _, carriageReturn | _, lineFeed | _, .control => false
  | _, .extend | _, joiner | _, .spacingMark => true
  | .prepend, _ => true
  | leading, leading | leading, vowel | leading, leadingVowel | leading, leadingVowelTrailing =>
    true
  | leadingVowel, vowel | leadingVowel, trailing | vowel, vowel | vowel, trailing => true
  | leadingVowelTrailing, trailing | trailing, trailing => true
  | joiner, .pictographic => s.picture
  | regionalIndicator, regionalIndicator => s.oddIndicators
  | _, _ => false

/-- The clusters of the rest of a text; `pending` are the characters of the cluster at hand, last
one first. -/
def graphemesFrom (s : GraphemeState) (pending : List Char) : List Char → List (List Char)
  | [] => [pending.reverse]
  | c :: cs =>
    let kind := graphemeClass c
    if s.joins kind then graphemesFrom (s.next kind) (c :: pending) cs
    else pending.reverse :: graphemesFrom (s.next kind) [c] cs

/-- The clusters of a text, in order. -/
def graphemes : List Char → List (List Char)
  | [] => []
  | c :: cs => graphemesFrom (.start (graphemeClass c)) [c] cs

end ModelGrid.Text
