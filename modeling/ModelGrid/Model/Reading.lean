import ModelGrid.Model.Property
import ModelGrid.Text.Case
import ModelGrid.Text.Search

/-!
# Reading the properties of a model

The source of a C# class is read line by line.  A line is an attribute, a property, or carries
nothing; any other line is a fault.  A property is shown under the title of the nearest attribute
above it, however many properties stand between.

## Main definitions

* `Line`, `Line.ofText`: what a line is.
* `Malformed`: the first faulty line of a source.
* `readSource`: the properties of a source, in order.
-/

namespace ModelGrid.Model

/-- What is wrong with a line. -/
inductive LineFault
  | unrecognized | typeOrNameMissing | nameWithoutLetter | attributeMissing
  deriving DecidableEq, Repr

/-- What a message says of the fault. -/
def LineFault.message : LineFault → String
  | unrecognized => "unrecognized construct"
  | typeOrNameMissing => "property line needs a type and a name"
  | nameWithoutLetter => "property name must start with a letter"
  | attributeMissing => "no attribute found for property line"

/-- A faulty line, by its number counted from one. -/
structure Malformed where
  line : Nat
  text : String
  fault : LineFault
  deriving DecidableEq, Repr

/-- What a line is. -/
inductive Line
  /-- A line without meaning for the properties. -/
  | ignorable
  | titled (title : List Char)
  | property (name : List Char) (dataType : DataType)
  | faulty (fault : LineFault)
  deriving DecidableEq, Repr

namespace Line

/-- The accessors of a property in their two spellings, taken out in this order. -/
def accessors : List (List Char) :=
  ["\x7b get; set; \x7d".toList, "\x7bget; set;\x7d".toList]

/-- Words that mark a line without meaning for the properties. -/
def ignoredWords : List (List Char) :=
  ["using".toList, "namespace".toList, "public class".toList]

/-- The title of an attribute that gives none. -/
def untitled : List Char := "__not_found_".toList

/-- The line without its accessors and without blanks at its ends. -/
def normalize (raw : List Char) : List Char :=
  Text.trim (accessors.foldl (fun line accessor => Text.eraseFirst accessor line) raw)

/-- Whether the line carries nothing: it is empty, a lone brace, or has an ignored word. -/
def carriesNothing (line : List Char) : Bool :=
  line.isEmpty || line == ['\x7b'] || line == ['\x7d'] ||
    ignoredWords.any fun word => Text.hasPart word line

/-- The title of an attribute: what stands from the first `Column("` up to the last `")`. -/
def titleOf (line : List Char) : List Char :=
  ((Text.afterFirst? "Column(\"".toList line).bind (Text.beforeLast? "\")".toList)).getD untitled

/-- The name with its first character in lower case. -/
def uncapitalize : List Char → List Char
  | [] => []
  | c :: cs => Text.lowerForm c ++ cs

/-- What a line in front of which `public` stands is: its second word is the type, its third the
name. -/
def propertyOf (line : List Char) : Line :=
  match Text.words line with
  | _ :: declared :: identifier :: _ =>
    let name := uncapitalize identifier
    if (name.head?.map Text.isLowercase).getD false then
      property name (DataType.ofDeclared declared)
    else faulty .nameWithoutLetter
  | _ => faulty .typeOrNameMissing

/-- What a normalised line is. -/
def ofText (line : List Char) : Line :=
  if carriesNothing line then ignorable
  else if Text.startsWith ['['] line then titled (titleOf line)
  else if Text.startsWith "public".toList line then propertyOf line
  else faulty .unrecognized

end Line

/-- The properties of lines numbered from `number` on, below an attribute with the title
`pending`. -/
def readLines (number : Nat) (pending : Option (List Char)) :
    List (List Char) → Except Malformed (List Property)
  | [] => .ok []
  | raw :: rest =>
    let line := Line.normalize raw
    let fail (fault : LineFault) : Except Malformed (List Property) :=
      .error ⟨number, String.ofList line, fault⟩
    match Line.ofText line with
    | .ignorable => readLines (number + 1) pending rest
    | .titled title => readLines (number + 1) (some title) rest
    | .faulty fault => fail fault
    | .property name dataType =>
      match pending with
      | none => fail .attributeMissing
      | some title =>
        match readLines (number + 1) pending rest with
        | .error malformed => .error malformed
        | .ok properties =>
          .ok (⟨String.ofList name, dataType, String.ofList title⟩ :: properties)

/-- The properties of a C# class, in order. -/
def readSource (source : String) : Except Malformed (List Property) :=
  readLines 1 none (Text.splitOn '\n' source.toList)

end ModelGrid.Model
