import ModelGrid.CommandLine
import ModelGrid.Store.Difference

/-!
# The program

A run works on a picture of the disk: the folders that the arguments name are read, the run is
made on the picture, and what it changed is written back.

## Main definitions

* `Program.load`: the picture of what is below a folder.
* `Program.save`: write back what a run changed.
* `main`: the program.
-/

namespace ModelGrid.Program

open Store

/-- A location as the operating system writes it. -/
def textOf (location : Location) : String :=
  "/" ++ "/".intercalate location

/-- The picture with the folders that lead to a location. -/
def withFolders (d : Disk) (location : Location) : Disk :=
  (List.range location.length).foldl (fun d n => d.put (location.take (n + 1)) .folder) d

/-- The content that the bytes of a file make up. -/
def contentOf (bytes : ByteArray) : Content :=
  match String.fromUTF8? bytes with
  | some text => .text text
  | none => .binary bytes

/-- The picture with what is below a folder. -/
partial def load (location : Location) (d : Disk) : IO Disk := do
  let top ← IO.currentDir
  let path := top / textOf location
  if ← path.isDir then
    let mut picture := withFolders d location
    for child in ← path.readDir do
      picture ← load (location ++ [child.fileName]) picture
    return picture
  else if ← path.pathExists then
    return (withFolders d location.dropLast).put location
      (.file (contentOf (← IO.FS.readBinFile path)))
  else return d

/-- The locations that a run with the arguments reads: the folder that it is started in, the root of
the workspace and the file of the model. -/
def locationsOf (here : Location) (arguments : List String) : List Location :=
  match CommandLine.Command.ofArguments arguments with
  | .ok (.generate root request) =>
    let found := [root, request.modelFile].map fun text =>
      let path := Path.ofString text
      (if path.absolute then [] else here) ++ path.segments
    (here :: found).map fun location =>
      location.foldl
        (fun done name =>
          if name == "." then done
          else if name == ".." then done.dropLast
          else done ++ [name])
        []
  | _ => []

/-- Write back what a run changed. -/
def save (before after : Disk) : IO Unit := do
  let top ← IO.currentDir
  let written := before.written after
  for (location, entry) in written do
    if let .folder := entry then IO.FS.createDirAll (top / textOf location)
  for (location, entry) in written do
    if let .file content := entry then
      match content with
      | .text text => IO.FS.writeFile (top / textOf location) text
      | .binary bytes => IO.FS.writeBinFile (top / textOf location) bytes
  for location in before.removed after do
    IO.FS.removeFile (top / textOf location)

end ModelGrid.Program

open ModelGrid ModelGrid.Store ModelGrid.Program in
/-- Make a run with the arguments on the disk. -/
def main (arguments : List String) : IO UInt32 := do
  let here := (Path.ofString (← IO.currentDir).toString).segments
  let mut before : Disk := { here, entries := [] }
  for location in locationsOf here arguments do
    before ← load location before
  let mut found := []
  for name in Settings.lookedUp do
    if let some value ← IO.getEnv name then found := (name, value) :: found
  let environment := found
  let settings := Settings.ofEnvironment fun name => environment.lookup name
  let (outcome, after) := CommandLine.run settings arguments before
  save before after
  (← IO.getStdout).putStr outcome.output
  (← IO.getStderr).putStr outcome.errors
  return outcome.exitCode.toUInt32
