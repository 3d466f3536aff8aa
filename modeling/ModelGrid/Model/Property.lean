import ModelGrid.Text.Blank

/-!
# Properties of a model

## Main definitions

* `DataType`: the types that the generated code tells apart.
* `DataType.ofDeclared`: the type that a declared C# type stands for.
* `Property`: a property of a model with the title it is shown under.
-/

namespace ModelGrid.Model

/-- The types that the generated code tells apart. -/
inductive DataType
  | string | number | boolean | dateTime
  deriving DecidableEq, Repr

namespace DataType

/-- The type that a declared C# type stands for.  A type that is not listed is read as text. -/
def ofDeclared (declared : List Char) : DataType :=
  let name := Text.trim declared
  if ["long", "long?", "int", "int?"].any fun known => known.toList == name then number
  else if ["bool", "bool?"].any fun known => known.toList == name then boolean
  else if ["DateTime", "DateTime?"].any fun known => known.toList == name then dateTime
  else string

/-- The name of the type. -/
def name : DataType → String
  | string => "string"
  | number => "number"
  | boolean => "boolean"
  | dateTime => "DateTime"

/-- The name of the type on the wire, where dates travel as text. -/
def wireName : DataType → String
  | dateTime => "string"
  | other => other.name

end DataType

/-- A property of a model. -/
structure Property where
  name : String
  dataType : DataType
  /-- The title that the property is shown under. -/
  title : String
  deriving DecidableEq, Repr

end ModelGrid.Model
