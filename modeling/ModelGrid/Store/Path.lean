import ModelGrid.Text.Search

/-!
# Paths

A path is written as names between slashes.  Runs of slashes count as one, `.` stays in a folder
and `..` leaves it.

## Main definitions

* `Path`: the segments of a written path.
* `Path.join`, `Path.parent?`, `Path.append`: paths made of others.
* `Path.fileName?`: the name of what a path denotes.
-/

namespace ModelGrid.Store

/-- A written path. -/
structure Path where
  /-- Whether it begins at the top of the disk. -/
  absolute : Bool := false
  /-- The names and dots between slashes, none of them empty. -/
  segments : List String := []
  /-- Whether it ends in a slash, and so can denote folders only. -/
  trailing : Bool := false
  deriving DecidableEq, Repr

namespace Path

/-- The names between slashes that are not empty. -/
def segmentsOf (path : List Char) : List (List Char) :=
  (Text.splitOn '/' path).filter fun segment => !segment.isEmpty

/-- The path that a text writes. -/
def ofString (path : String) : Path :=
  let segments := segmentsOf path.toList
  { absolute := path.toList.head? == some '/'
    segments := segments.map String.ofList
    trailing := !segments.isEmpty && path.toList.getLast? == some '/' }

/-- The empty path denotes nothing. -/
def isEmpty (p : Path) : Bool :=
  !p.absolute && p.segments.isEmpty

/-- The second path, begun where the first one leads. -/
def join (base relative : Path) : Path :=
  if relative.segments.isEmpty then base
  else
    { absolute := base.absolute
      segments := base.segments ++ relative.segments
      trailing := relative.trailing }

/-- The segments without dots that stay in a folder, apart from one that begins the path. -/
def components (p : Path) : List String :=
  match p.segments with
  | [] => []
  | first :: rest =>
    let rest := rest.filter (· != ".")
    if first == "." && p.absolute then rest else first :: rest

/-- The path without its last component. -/
def parent? (p : Path) : Option Path :=
  let components := p.components
  if components.isEmpty then none
  else some { absolute := p.absolute, segments := components.dropLast }

/-- The path with a text written behind it. -/
def append (p : Path) (text : String) : Path :=
  match p.segments.getLast? with
  | none => { p with segments := [text] }
  | some last =>
    if p.trailing then { p with segments := p.segments ++ [text], trailing := false }
    else { p with segments := p.segments.dropLast ++ [last ++ text] }

/-- The name of what the path denotes, if it ends in a name. -/
def fileName? (p : Path) : Option String :=
  match p.components.getLast? with
  | none => none
  | some last => if last == "." || last == ".." then none else some last

end Path

end ModelGrid.Store
