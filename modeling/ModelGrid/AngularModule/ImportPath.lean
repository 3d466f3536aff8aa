import ModelGrid.Store.Path

/-!
# Paths of imports

A module file imports a component by a path relative to the folder that the file is in.

## Main definitions

* `relativeImport`: the path from a module file to what it imports.
* `resolveImport`: where such a path leads.
-/

namespace ModelGrid.AngularModule

open Store

/-- A segment that leads out of a folder. -/
def up : List Char := ['.', '.']

/-- A segment that stays in a folder. -/
def stay : List Char := ['.']

/-- The number of segments that two paths begin with in common. -/
def commonLength : List (List Char) → List (List Char) → Nat
  | a :: as, b :: bs => if a == b then commonLength as bs + 1 else 0
  | _, _ => 0

/-- The segments from a folder to a target: out of the folder as far as the two paths differ, then
down to the target. -/
def relativeSegments (folder target : List (List Char)) : List (List Char) :=
  let common := commonLength folder target
  List.replicate (folder.length - common) up ++ target.drop common

/-- Segments with slashes between them. -/
def joinSegments (segments : List (List Char)) : List Char :=
  ['/'].intercalate segments

/-- The path from a module file to what it imports. -/
def relativeImport (moduleFile target : String) : String :=
  let folder := (Path.segmentsOf moduleFile.toList).dropLast
  let joined := joinSegments (relativeSegments folder (Path.segmentsOf target.toList))
  String.ofList (if Text.startsWith up joined then joined else stay ++ '/' :: joined)

/-- One more segment behind those already followed, nearest first: a step out of a folder undoes
the step into it, if there is one. -/
def followSegment (behind : List (List Char)) (segment : List Char) : List (List Char) :=
  if segment == stay then behind
  else if segment == up then
    match behind with
    | [] => [up]
    | last :: rest => if last == up then up :: last :: rest else rest
  else segment :: behind

/-- The segments without those that a later step undoes. -/
def normalizeSegments (segments : List (List Char)) : List (List Char) :=
  (segments.foldl followSegment []).reverse

/-- Where an import of the path leads, seen from the module file. -/
def resolveImport (moduleFile path : String) : List (List Char) :=
  normalizeSegments
    ((Path.segmentsOf moduleFile.toList).dropLast ++ Path.segmentsOf path.toList)

end ModelGrid.AngularModule
