/-!
# JSON values

## Main definitions

* `Json`: a value as it is written: objects keep their members in order, repeated ones included,
  and numbers keep their spelling.
-/

namespace ModelGrid

/-- A JSON value as it is written. -/
inductive Json where
  | null
  | bool (value : Bool)
  | number (spelling : List Char)
  /-- A string; without a text if an escape in it names half of a surrogate pair. -/
  | string (text : Option String)
  | array (items : List Json)
  | object (members : List (Option String × Json))

end ModelGrid
