import ModelGrid.Model.Property
import ModelGrid.Settings

/-!
# What properties contribute

What the properties of a model contribute to the files of a component: a column, a field of a row,
and a field of the interface that describes an object of the model.  A list of properties
contributes a block with one line for each of them, in order.

## Main definitions

* `columnStatement`, `rowField`, `interfaceField`: the line of one property.
* `columnBlock`, `rowBlock`, `interfaceDeclaration`: the blocks.
-/

namespace ModelGrid.Component.Contribution

open Model

/-- The lines, each on a new line behind the indentation. -/
def indented (indent : String) (lines : List String) : String :=
  String.join (lines.map fun line => "\n" ++ indent ++ line)

/-! ### Columns -/

/-- The statement that registers a column under the title of the property. -/
def columnStatement (p : Property) : String :=
  "stringIndexerHelper.addColumnItem(new ColumnItemStrict('" ++ p.title ++ "', '" ++ p.name ++
    "', null, '" ++ p.name ++ "', null, null));"

/-- An empty line, then the statements that register the columns. -/
def columnBlock (properties : List Property) : String :=
  "\n" ++ indented "\t\t" (properties.map columnStatement)

/-! ### Rows -/

/-- The field of a row that shows the property.  Dates are written out by the formatting; a date
that is missing is shown as an empty text. -/
def rowField (formatting : Formatting) (p : Property) : String :=
  let value := "dto." ++ p.name
  match p.dataType with
  | .dateTime =>
    p.name ++ ": " ++ value ++ " ? formatDate(" ++ value ++ ", '" ++ formatting.dateFormat ++
      "', '" ++ formatting.locale ++ "') : '',"
  | _ => p.name ++ ": " ++ value ++ ","

/-- The statement that returns a row. -/
def rowBlock (formatting : Formatting) (properties : List Property) : String :=
  "\n\treturn \x7b" ++ indented "\t\t" (properties.map (rowField formatting)) ++ "\n\t\x7d"

/-! ### The interface -/

/-- The field of the interface for the property, with the type that it has on the wire. -/
def interfaceField (p : Property) : String :=
  p.name ++ ": " ++ p.dataType.wireName

/-- The interface that describes an object of the model as it travels. -/
def interfaceDeclaration (modelName : String) (properties : List Property) : String :=
  "export interface " ++ modelName ++ " \x7b" ++ indented "\t" (properties.map interfaceField) ++
    "\n\x7d"

end ModelGrid.Component.Contribution
