import ModelGrid.Text.Grapheme

/-!
# Names in two spellings

A component goes by a dashed name in paths and by a capitalised name in code.  Both are made of the
words of the given name, however it is spelled.

## Main definitions

* `Naming.words`: the words of a name.
* `kebabCase`: the words in lower case with dashes between them.
* `pascalCase`: the words capitalised, without anything between them.
* `componentClassOf`: the name of a component's class.
-/

namespace ModelGrid

namespace Naming

open Text

/-- A cluster that is what its lower case form is, and has another in upper case. -/
def isLower (g : List Char) : Bool :=
  toUpper g != toLower g && g == toLower g

/-- A cluster that is what its upper case form is, and has another in lower case. -/
def isUpper (g : List Char) : Bool :=
  toUpper g != toLower g && g == toUpper g

/-- A cluster of decimal digits. -/
def isDigit (g : List Char) : Bool :=
  g.all Char.isDigit

/-- A cluster that stands between two words and belongs to neither. -/
def isSeparator (g : List Char) : Bool :=
  g == ['_'] || g == ['-'] || g == [' ']

/-- Whether a word ends behind a cluster: where lower case turns into upper case, where letters
and digits meet, and before the last of several capitals if lower case follows it. -/
def endsWord (g : List Char) : List (List Char) → Bool
  | [] => false
  | next :: rest =>
    (isLower g && isUpper next) ||
      (isUpper g && isDigit next) || (isDigit g && isUpper next) ||
      (isDigit g && isLower next) || (isLower g && isDigit next) ||
      (isUpper g && isUpper next && (rest.head?.map isLower).getD false)

/-- The words of the rest of a name; `pending` are the clusters of the word at hand, last one
first.  Two separators without anything between them enclose an empty word. -/
def wordsFrom (pending : List (List Char)) : List (List Char) → List (List (List Char))
  | [] => [pending.reverse]
  | g :: rest =>
    if isSeparator g then pending.reverse :: wordsFrom [] rest
    else if endsWord g rest then (g :: pending).reverse :: wordsFrom [] rest
    else wordsFrom (g :: pending) rest

/-- The words of a name, each as its clusters. -/
def words (name : List Char) : List (List (List Char)) :=
  wordsFrom [] (graphemes name)

/-- A word with its first cluster in upper case and the others in lower case. -/
def capitalize : List (List Char) → List Char
  | [] => []
  | first :: rest => toUpper first ++ toLower rest.flatten

/-- The words of a name in lower case, with dashes between them. -/
def dashed (name : List Char) : List Char :=
  ['-'].intercalate ((words name).map fun word => toLower word.flatten)

/-- The words of a name capitalised, without anything between them. -/
def capitalized (name : List Char) : List Char :=
  (words name).flatMap capitalize

end Naming

/-- The name as it stands in paths: its words in lower case, with dashes between them. -/
def kebabCase (name : String) : String :=
  String.ofList (Naming.dashed name.toList)

/-- The name as it stands in code: its words capitalised. -/
def pascalCase (name : String) : String :=
  String.ofList (Naming.capitalized name.toList)

/-- The name of a component's class. -/
def componentClassOf (name : String) : String :=
  pascalCase name ++ "Component"

end ModelGrid
