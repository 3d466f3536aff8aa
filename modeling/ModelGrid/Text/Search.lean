/-!
# Finding and replacing parts of a text

## Main definitions

* `Text.dropPart?`: the text after a part at its front.
* `Text.hasPart`, `Text.eraseFirst`, `Text.replaceAll`: look for a part, take its first occurrence
  out, put another text in place of all its occurrences.
* `Text.beforeLast?`: the text in front of the last occurrence of a part.
* `Text.splitOn`: the stretches of a text between the occurrences of a character.
-/

namespace ModelGrid.Text

/-- The text after the part at its front, if it begins with it. -/
def dropPart? : List Char → List Char → Option (List Char)
  | [], cs => some cs
  | _ :: _, [] => none
  | p :: ps, c :: cs => if p == c then dropPart? ps cs else none

/-- Whether the text begins with the part. -/
def startsWith (part cs : List Char) : Bool :=
  (dropPart? part cs).isSome

/-- The text after the first occurrence of a part. -/
def afterFirst? (part : List Char) : List Char → Option (List Char)
  | [] => dropPart? part []
  | c :: cs =>
    match dropPart? part (c :: cs) with
    | some rest => some rest
    | none => afterFirst? part cs

/-- Whether the part occurs in the text. -/
def hasPart (part cs : List Char) : Bool :=
  (afterFirst? part cs).isSome

/-- The text without the first occurrence of the part. -/
def eraseFirst (part : List Char) : List Char → List Char
  | [] => []
  | c :: cs =>
    match dropPart? part (c :: cs) with
    | some rest => rest
    | none => c :: eraseFirst part cs

/-- The text in front of the last occurrence of a part. -/
def beforeLast? (part : List Char) : List Char → Option (List Char)
  | [] => (dropPart? part []).map fun _ => []
  | c :: cs =>
    match beforeLast? part cs with
    | some before => some (c :: before)
    | none => (dropPart? part (c :: cs)).map fun _ => []

/-- The text with a value for each occurrence of a part, from left to right; `skip` characters at
the front belong to an occurrence already replaced. -/
def replaceFrom (part value : List Char) : Nat → List Char → List Char
  | _, [] => []
  | skip + 1, _ :: cs => replaceFrom part value skip cs
  | 0, c :: cs =>
    if startsWith part (c :: cs) then value ++ replaceFrom part value (part.length - 1) cs
    else c :: replaceFrom part value 0 cs

/-- The text with a value in place of each occurrence of a part that is not empty. -/
def replaceAll (part value cs : List Char) : List Char :=
  replaceFrom part value 0 cs

/-- The stretches of a text between the occurrences of a character; there is one more than there
are occurrences. -/
def splitOn (separator : Char) : List Char → List (List Char)
  | [] => [[]]
  | c :: cs =>
    if c == separator then [] :: splitOn separator cs
    else
      match splitOn separator cs with
      | [] => [[c]]
      | stretch :: rest => (c :: stretch) :: rest

/-- The text without the occurrences of a character at its end. -/
def dropTrailing (c : Char) (cs : List Char) : List Char :=
  (cs.reverse.dropWhile (· == c)).reverse

/-- The text without the occurrences of a character at its front. -/
def dropLeading (c : Char) (cs : List Char) : List Char :=
  cs.dropWhile (· == c)

end ModelGrid.Text
