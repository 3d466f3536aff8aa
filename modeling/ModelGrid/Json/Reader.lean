import ModelGrid.Json.Value

/-!
# Reading JSON

The grammar of JSON.  A string is read also where an escape in it names half of a surrogate pair, but
then it has no text.

## Main definitions

* `Json.parse?`: the value that a text writes.
-/

namespace ModelGrid.Json

/-- The white space between the parts of a value. -/
def isSpace (c : Char) : Bool :=
  c == ' ' || c == '\n' || c == '\t' || c == '\r'

def skipSpace (cs : List Char) : List Char :=
  cs.dropWhile isSpace

/-! ### Strings -/

/-- The value of a hexadecimal digit. -/
def hexDigit? (c : Char) : Option Nat :=
  if c.isDigit then some (c.toNat - '0'.toNat)
  else if 'a' ≤ c && c ≤ 'f' then some (c.toNat - 'a'.toNat + 10)
  else if 'A' ≤ c && c ≤ 'F' then some (c.toNat - 'A'.toNat + 10)
  else none

/-- The number that four hexadecimal digits write, and the text after them. -/
def hexQuad? : List Char → Option (Nat × List Char)
  | a :: b :: c :: d :: rest =>
    match hexDigit? a, hexDigit? b, hexDigit? c, hexDigit? d with
    | some a, some b, some c, some d => some (((a * 16 + b) * 16 + c) * 16 + d, rest)
    | _, _, _, _ => none
  | _ => none

def isLeadingSurrogate (n : Nat) : Bool := 0xD800 ≤ n && n ≤ 0xDBFF

def isTrailingSurrogate (n : Nat) : Bool := 0xDC00 ≤ n && n ≤ 0xDFFF

/-- The character that a letter after a backslash stands for. -/
def escaped? : Char → Option Char
  | '"' => some '"'
  | '\\' => some '\\'
  | '/' => some '/'
  | 'b' => some '\x08'
  | 'f' => some '\x0c'
  | 'n' => some '\n'
  | 'r' => some '\r'
  | 't' => some '\t'
  | _ => none

/-- The second half of a surrogate pair that an escape at the front of a text names, and the text after
the escape. -/
def trailingEscape? : List Char → Option (Nat × List Char)
  | '\\' :: 'u' :: rest =>
    match hexQuad? rest with
    | some (n, after) => if isTrailingSurrogate n then some (n, after) else none
    | none => none
  | _ => none

/-- The character that the number in an escape stands for, and the text after it, given the text after
the escape.  The first half of a surrogate pair takes an escape with the second half; a half that
stands alone is no character. -/
def ofCode (n : Nat) (after : List Char) : Option Char × List Char :=
  if isLeadingSurrogate n then
    match trailingEscape? after with
    | some (m, rest) => (some (Char.ofNat (0x10000 + (n - 0xD800) * 0x400 + (m - 0xDC00))), rest)
    | none => (none, after)
  else if isTrailingSurrogate n then (none, after)
  else (some (Char.ofNat n), after)

/-- One character of a string, or half of a surrogate pair, and the text after it. -/
def unit? : List Char → Option (Option Char × List Char)
  | [] => none
  | '\\' :: 'u' :: rest => (hexQuad? rest).map fun (n, after) => ofCode n after
  | '\\' :: c :: rest => (escaped? c).map fun image => (some image, rest)
  | c :: rest => if c == '\\' || c.toNat < 0x20 then none else some (some c, rest)

/-- The rest of a string up to its closing quote, a `none` for each half of a pair that stands
alone.  Every step takes a character, so a fuel of the length of the text is enough. -/
def stringTail? : Nat → List Char → Option (List (Option Char) × List Char)
  | 0, _ => none
  | _ + 1, '"' :: rest => some ([], rest)
  | fuel + 1, cs =>
    match unit? cs with
    | none => none
    | some (unit, after) => (stringTail? fuel after).map fun (units, rest) => (unit :: units, rest)

/-- A string after its opening quote. -/
def string? (cs : List Char) : Option (Option String × List Char) :=
  (stringTail? cs.length cs).map fun (found, rest) =>
    (if found.all Option.isSome then some (String.ofList (found.filterMap id)) else none, rest)

/-! ### Numbers -/

/-- One or more digits. -/
def digits? (cs : List Char) : Option (List Char × List Char) :=
  match cs.span Char.isDigit with
  | ([], _) => none
  | found => some found

/-- The whole part of a number: a zero, or digits of which the first is none. -/
def whole? : List Char → Option (List Char × List Char)
  | '0' :: rest => some (['0'], rest)
  | cs => digits? cs

/-- The decimal places of a number, if there are any. -/
def places? : List Char → Option (List Char × List Char)
  | '.' :: cs => (digits? cs).map fun (found, rest) => ('.' :: found, rest)
  | cs => some ([], cs)

/-- The exponent of a number, if there is one. -/
def exponent? : List Char → Option (List Char × List Char)
  | e :: cs =>
    if e == 'e' || e == 'E' then
      match cs with
      | sign :: rest =>
        if sign == '+' || sign == '-' then
          (digits? rest).map fun (found, after) => (e :: sign :: found, after)
        else (digits? cs).map fun (found, after) => (e :: found, after)
      | [] => none
    else some ([], e :: cs)
  | [] => some ([], [])

/-- A number. -/
def number? (cs : List Char) : Option (List Char × List Char) := do
  let (sign, unsigned) := match cs with
    | '-' :: rest => (['-'], rest)
    | _ => ([], cs)
  let (whole, afterWhole) ← whole? unsigned
  let (places, afterPlaces) ← places? afterWhole
  let (exponent, rest) ← exponent? afterPlaces
  return (sign ++ whole ++ places ++ exponent, rest)

/-! ### Values -/

/-- The text after a word at its front. -/
def word? : List Char → List Char → Option (List Char)
  | [], cs => some cs
  | w :: ws, c :: cs => if w == c then word? ws cs else none
  | _ :: _, [] => none

mutual

/-- A value with white space in front.  Every step takes a character, so a fuel of twice the length of
the text is enough. -/
def value? : Nat → List Char → Option (Json × List Char)
  | 0, _ => none
  | fuel + 1, cs =>
    match skipSpace cs with
    | [] => none
    | '"' :: rest => (string? rest).map fun (text, after) => (.string text, after)
    | '[' :: rest =>
      match skipSpace rest with
      | ']' :: after => some (.array [], after)
      | inner => (items? fuel inner).map fun (items, after) => (.array items, after)
    | '\x7b' :: rest =>
      match skipSpace rest with
      | '\x7d' :: after => some (.object [], after)
      | inner => (members? fuel inner).map fun (members, after) => (.object members, after)
    | c :: rest =>
      let text := c :: rest
      if let some after := word? "null".toList text then some (.null, after)
      else if let some after := word? "true".toList text then some (.bool true, after)
      else if let some after := word? "false".toList text then some (.bool false, after)
      else (number? text).map fun (spelling, after) => (.number spelling, after)

/-- The items of an array up to its closing bracket. -/
def items? : Nat → List Char → Option (List Json × List Char)
  | 0, _ => none
  | fuel + 1, cs =>
    match value? fuel cs with
    | none => none
    | some (item, rest) =>
      match skipSpace rest with
      | ']' :: after => some ([item], after)
      | ',' :: more => (items? fuel more).map fun (items, after) => (item :: items, after)
      | _ => none

/-- The members of an object up to its closing brace. -/
def members? : Nat → List Char → Option (List (Option String × Json) × List Char)
  | 0, _ => none
  | fuel + 1, cs =>
    match skipSpace cs with
    | '"' :: rest =>
      match string? rest with
      | none => none
      | some (key, afterKey) =>
        match skipSpace afterKey with
        | ':' :: afterColon =>
          match value? fuel afterColon with
          | none => none
          | some (item, afterItem) =>
            match skipSpace afterItem with
            | '\x7d' :: after => some ([(key, item)], after)
            | ',' :: more =>
              (members? fuel more).map fun (members, after) => ((key, item) :: members, after)
            | _ => none
        | _ => none
    | _ => none

end

/-- The value that a text writes, with white space around it. -/
def parse? (text : String) : Option Json :=
  let cs := text.toList
  match value? (2 * cs.length + 1) cs with
  | none => none
  | some (found, rest) => if (skipSpace rest).isEmpty then some found else none

end ModelGrid.Json
