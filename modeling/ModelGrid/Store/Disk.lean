import ModelGrid.Store.Path

/-!
# Disks

A disk maps locations to files and folders.  Paths are followed step by step, so that each fault of
an operation has the cause that an operating system reports for it.

## Main definitions

* `Location`, `Entry`, `Disk`: where things are, what they are, and all of them.
* `DiskFault`: why an operation fails.
* `Disk.resolve`: the place that a path leads to.
* `Disk.find`, `Disk.write`, `Disk.createFolder`, `Disk.createFolders`, `Disk.remove`,
  `Disk.rename`, `Disk.listing`: the operations.
-/

namespace ModelGrid.Store

/-- Where a file or folder is: the names that lead to it from the top of the disk. -/
abbrev Location := List String

/-- What a file holds: a text, or bytes that are the form of no text. -/
inductive Content
  | text (text : String)
  | binary (bytes : ByteArray)

/-- A file or a folder. -/
inductive Entry
  | file (content : Content)
  | folder

/-- Why an operation on a disk fails. -/
inductive DiskFault
  | noEntry | alreadyThere | notFolder | isFolder | nameTooLong | zeroInName
  deriving DecidableEq, Repr

/-- What the operating system says of the fault. -/
def DiskFault.message : DiskFault → String
  | noEntry => "No such file or directory (os error 2)"
  | alreadyThere => "File exists (os error 17)"
  | notFolder => "Not a directory (os error 20)"
  | isFolder => "Is a directory (os error 21)"
  | nameTooLong => "File name too long (os error 36)"
  | zeroInName => "file name contained an unexpected NUL byte"

/-- The files and folders below the top of a disk, each once, and the folder that paths which are
not absolute begin at. -/
structure Disk where
  here : Location
  entries : List (Location × Entry)

/-- The place that a path leads to. -/
inductive Target
  /-- A folder, reached by dots or by nothing. -/
  | folder (location : Location)
  /-- A name in a folder that exists; there may be something of that name or not. -/
  | named (location : Location)

/-- The number of bytes that a name may have. -/
def nameLimit : Nat := 255

namespace Disk

/-- What is at a location.  The top of the disk is a folder. -/
def entry? (d : Disk) (location : Location) : Option Entry :=
  if location = [] then some .folder
  else (d.entries.find? fun entry => entry.1 == location).map Prod.snd

/-- The disk with the entry at a location. -/
def put (d : Disk) (location : Location) (entry : Entry) : Disk :=
  { d with entries := (location, entry) :: d.entries.filter fun old => old.1 != location }

/-- The disk with nothing at a location. -/
def erase (d : Disk) (location : Location) : Disk :=
  { d with entries := d.entries.filter fun old => old.1 != location }

/-! ### Following paths -/

/-- Follow the segments from a location.  Each needs a folder to start from. -/
def follow (d : Disk) (location : Location) : List String → Except DiskFault Target
  | [] => .ok (.folder location)
  | segment :: rest =>
    match d.entry? location with
    | none => .error .noEntry
    | some (.file _) => .error .notFolder
    | some .folder =>
      if segment == "." then follow d location rest
      else if segment == ".." then follow d location.dropLast rest
      else if segment.utf8ByteSize > nameLimit then .error .nameTooLong
      else
        match rest with
        | [] => .ok (.named (location ++ [segment]))
        | _ :: _ => follow d (location ++ [segment]) rest

/-- The place that a path leads to. -/
def resolve (d : Disk) (p : Path) : Except DiskFault Target :=
  if p.segments.any fun segment => segment.toList.contains '\x00' then .error .zeroInName
  else if p.isEmpty then .error .noEntry
  else d.follow (if p.absolute then [] else d.here) p.segments

/-- The location and the entry that a path leads to. -/
def find (d : Disk) (p : Path) : Except DiskFault (Location × Entry) :=
  match d.resolve p with
  | .error fault => .error fault
  | .ok (.folder location) => .ok (location, .folder)
  | .ok (.named location) =>
    match d.entry? location with
    | none => .error .noEntry
    | some .folder => .ok (location, .folder)
    | some (.file content) =>
      if p.trailing then .error .notFolder else .ok (location, .file content)

/-- Whether the path leads to a file. -/
def isFile (d : Disk) (p : Path) : Bool :=
  match d.find p with
  | .ok (_, .file _) => true
  | _ => false

/-- Whether the path leads to a folder. -/
def isFolder (d : Disk) (p : Path) : Bool :=
  match d.find p with
  | .ok (_, .folder) => true
  | _ => false

/-- Whether the path leads to anything. -/
def exists? (d : Disk) (p : Path) : Bool :=
  match d.find p with
  | .ok _ => true
  | .error _ => false

/-! ### Operations -/

/-- Put a file at a path, in place of one that is there. -/
def write (d : Disk) (p : Path) (content : Content) : Except DiskFault Disk :=
  match d.resolve p with
  | .error fault => .error fault
  | .ok (.folder _) => .error .isFolder
  | .ok (.named location) =>
    match d.entry? location with
    | some .folder => .error .isFolder
    | some (.file _) =>
      if p.trailing then .error .notFolder else .ok (d.put location (.file content))
    | none => if p.trailing then .error .isFolder else .ok (d.put location (.file content))

/-- Make a folder at a path where nothing is. -/
def createFolder (d : Disk) (p : Path) : Except DiskFault Disk :=
  match d.resolve p with
  | .error fault => .error fault
  | .ok (.folder _) => .error .alreadyThere
  | .ok (.named location) =>
    match d.entry? location with
    | some _ => .error .alreadyThere
    | none => .ok (d.put location .folder)

/-- Make a folder and what leads to it, as far as it is not there; `fuel` bounds the number of
folders.  Folders made before a fault stay. -/
def createFoldersUpTo : Nat → Path → Disk → Except DiskFault Unit × Disk
  | 0, _, d => (.error .noEntry, d)
  | fuel + 1, p, d =>
    if p.isEmpty then (.ok (), d)
    else
      match d.createFolder p with
      | .ok made => (.ok (), made)
      | .error .noEntry =>
        match p.parent? with
        | none => (.error .noEntry, d)
        | some parent =>
          match createFoldersUpTo fuel parent d with
          | (.error fault, after) => (.error fault, after)
          | (.ok (), after) =>
            match after.createFolder p with
            | .ok made => (.ok (), made)
            | .error fault => if after.isFolder p then (.ok (), after) else (.error fault, after)
      | .error fault => if d.isFolder p then (.ok (), d) else (.error fault, d)

/-- Make a folder and what leads to it, as far as it is not there. -/
def createFolders (p : Path) (d : Disk) : Except DiskFault Unit × Disk :=
  createFoldersUpTo (p.segments.length + 1) p d

/-- Take a file away. -/
def remove (d : Disk) (p : Path) : Except DiskFault Disk :=
  match d.resolve p with
  | .error fault => .error fault
  | .ok (.folder _) => .error .isFolder
  | .ok (.named location) =>
    match d.entry? location with
    | none => .error .noEntry
    | some .folder => .error .isFolder
    | some (.file _) => if p.trailing then .error .notFolder else .ok (d.erase location)

/-- Move a file to another path, in place of a file that is there. -/
def rename (d : Disk) (source target : Path) : Except DiskFault Disk :=
  match d.resolve source, d.resolve target with
  | .error fault, _ => .error fault
  | _, .error fault => .error fault
  | .ok (.folder _), _ | _, .ok (.folder _) => .error .isFolder
  | .ok (.named old), .ok (.named new) =>
    match d.entry? old with
    | none => .error .noEntry
    | some .folder => .error .isFolder
    | some (.file content) =>
      if source.trailing || target.trailing then .error .notFolder
      else
        match d.entry? new with
        | some .folder => .error .isFolder
        | _ => .ok ((d.erase old).put new (.file content))

/-! ### Folders -/

/-- The names of a folder's files and of its folders, sorted. -/
structure Listing where
  files : List String
  folders : List String
  deriving DecidableEq, Repr

/-- Put a name among sorted ones. -/
def placeName (name : String) : List String → List String
  | [] => [name]
  | other :: rest =>
    if other < name then other :: placeName name rest else name :: other :: rest

/-- The names in order. -/
def sortNames (names : List String) : List String :=
  names.foldr placeName []

/-- The name and entry of something directly in a folder. -/
def childIn? (folder : Location) : Location × Entry → Option (String × Entry)
  | (location, entry) =>
    match location.getLast? with
    | some name => if location.dropLast == folder then some (name, entry) else none
    | none => none

/-- What is directly in a folder. -/
def listingAt (d : Disk) (folder : Location) : Listing :=
  let children := d.entries.filterMap (childIn? folder)
  let names (isWanted : Entry → Bool) :=
    sortNames ((children.filter fun child => isWanted child.2).map Prod.fst)
  { files := names fun entry => match entry with | .file _ => true | .folder => false
    folders := names fun entry => match entry with | .file _ => false | .folder => true }

/-- What is directly in the folder that a path leads to. -/
def listing (d : Disk) (p : Path) : Except DiskFault Listing :=
  match d.find p with
  | .error fault => .error fault
  | .ok (_, .file _) => .error .notFolder
  | .ok (location, .folder) => .ok (d.listingAt location)

end Disk

end ModelGrid.Store
