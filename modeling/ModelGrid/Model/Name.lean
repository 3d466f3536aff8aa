import ModelGrid.Store.Path

/-!
# The name of a model

A model is named after the file that declares it: `models/UserDto.cs` declares `UserDto`.

## Main definitions

* `Model.nameOfPath?`: the name of the model that the file at a path declares.
-/

namespace ModelGrid.Model

/-- The characters of a model's name. -/
def isNameChar (c : Char) : Bool :=
  c.isAlphanum || c == '_'

/-- The name of the model that the file at a path declares. -/
def nameOfPath? (path : String) : Option String :=
  match (Store.Path.ofString path).fileName? with
  | none => none
  | some file =>
    let (name, rest) := file.toList.span isNameChar
    if name.isEmpty || rest != ".cs".toList then none else some (String.ofList name)

end ModelGrid.Model
