import ModelGrid.Naming
import ModelGrid.Text.Search

/-!
# Templates

A template is a text with markers, for each of which a value is put.  Rendering puts the values one
marker after another; where no value and no literal text has braces next to it, that is the same as
putting all of them at once.

## Main definitions

* `Marker`, `Values`: the markers, and a value for each.
* `Values.render`: a template with the values put one marker after another.
* `Piece`, `Piece.fill`: a template taken apart, and all its values put at once.
-/

namespace ModelGrid.Component

/-- What a value may be put for. -/
inductive Marker
  | name | dashedName | className | modelName | modelFileName
  deriving DecidableEq, Repr

namespace Marker

/-- The markers in the order in which their values are put. -/
def all : List Marker := [name, dashedName, className, modelName, modelFileName]

/-- The marker as it stands in a template. -/
def spelling : Marker → String
  | name => "\x7b\x7bname\x7d\x7d"
  | dashedName => "\x7b\x7bdasherizedName\x7d\x7d"
  | className => "\x7b\x7bclassName\x7d\x7d"
  | modelName => "\x7b\x7bmodelName\x7d\x7d"
  | modelFileName => "\x7b\x7bmodelFileName\x7d\x7d"

end Marker

/-- A value for each marker. -/
structure Values where
  name : String
  dashedName : String
  className : String
  modelName : String
  modelFileName : String
  deriving DecidableEq, Repr

namespace Values

/-- The values for a component of the name that shows a model. -/
def ofNames (name modelName : String) : Values :=
  { name
    dashedName := kebabCase name
    className := pascalCase name
    modelName
    modelFileName := kebabCase modelName }

/-- The value for a marker. -/
def value (p : Values) : Marker → String
  | .name => p.name
  | .dashedName => p.dashedName
  | .className => p.className
  | .modelName => p.modelName
  | .modelFileName => p.modelFileName

/-- A text with the values put one marker after another. -/
def renderIn (p : Values) (markers : List Marker) (text : List Char) : List Char :=
  markers.foldl
    (fun done marker => Text.replaceAll marker.spelling.toList (p.value marker).toList done) text

/-- A template with the values put one marker after another. -/
def render (p : Values) (template : String) : String :=
  String.ofList (p.renderIn Marker.all template.toList)

end Values

/-- A part of a template. -/
inductive Piece
  | literal (text : String)
  | marker (marked : Marker)
  deriving DecidableEq, Repr

namespace Piece

/-- The piece as it stands in a template. -/
def spelling : Piece → String
  | .literal text => text
  | .marker marked => marked.spelling

/-- The piece with the value put for it if it is a marker. -/
def fill (p : Values) : Piece → String
  | .literal text => text
  | .marker marked => p.value marked

/-- The template that the pieces make up. -/
def template (pieces : List Piece) : String :=
  String.join (pieces.map spelling)

/-- The pieces with all values put at once. -/
def filled (p : Values) (pieces : List Piece) : String :=
  String.join (pieces.map (fill p))

end Piece

end ModelGrid.Component
