import ModelGrid.Text.Offset

/-!
# Edit sessions

A session collects insertions against a snapshot of one file.  Offsets always refer to the
snapshot, never to text that earlier insertions have moved.  Where several insertions share an
offset, those on the left come before those on the right, and each group keeps the order in which
it was asked for.

## Main definitions

* `Session`: a file's path, its snapshot and the insertions accepted so far.
* `Session.insert`: one more insertion, refused where the snapshot cannot be cut.
* `Session.edited?`: the snapshot with all insertions, made in one walk over the sorted insertions;
  `none` where the walk would cut the snapshot outside of it or inside a character.
* `Session.layout`: the same text described position by position.
-/

namespace ModelGrid.Edit

/-- Which neighbour an insertion sticks to where several share an offset. -/
inductive Side
  | left | right
  deriving DecidableEq, Repr

/-- A text to be inserted at a byte offset of the snapshot. -/
structure Insertion where
  offset : Nat
  text : String
  side : Side
  deriving DecidableEq, Repr

/-- Whether `a` stands in front of `b` or at the same place: by offset, left before right. -/
def Insertion.notAfter (a b : Insertion) : Bool :=
  a.offset < b.offset || (a.offset == b.offset && (a.side == .left || b.side == .right))

/-- The insertions planned for a snapshot of one file. -/
structure Session where
  path : String
  snapshot : String
  /-- The accepted insertions in call order. -/
  insertions : List Insertion := []
  /-- The snapshot can be cut at every insertion. -/
  boundary : ∀ i ∈ insertions, Text.IsBoundary snapshot.toList i.offset := by simp

/-- Why an insertion is refused: the offset does not cut the snapshot. -/
structure Refusal where
  offset : Nat
  path : String
  /-- The number of bytes of the snapshot. -/
  size : Nat
  deriving DecidableEq, Repr

namespace Session

/-- A session without insertions. -/
def start (path snapshot : String) : Session := { path, snapshot }

def isEmpty (s : Session) : Bool := s.insertions.isEmpty

/-- One more insertion.  It is refused where the snapshot cannot be cut, whatever was inserted
before. -/
def insert (s : Session) (offset : Nat) (text : String) (side : Side) :
    Except Refusal Session :=
  if h : Text.IsBoundary s.snapshot.toList offset then
    .ok
      { s with
        insertions := s.insertions ++ [⟨offset, text, side⟩]
        boundary := by
          intro i hi
          rcases List.mem_append.1 hi with hi | hi
          · exact s.boundary i hi
          · rw [List.mem_singleton.1 hi]; exact h }
  else
    .error ⟨offset, s.path, Text.size s.snapshot.toList⟩

def insertLeft (s : Session) (offset : Nat) (text : String) : Except Refusal Session :=
  s.insert offset text .left

def insertRight (s : Session) (offset : Nat) (text : String) : Except Refusal Session :=
  s.insert offset text .right

/-! ### The edited text -/

/-- Put an insertion among sorted ones, behind those at the same place. -/
def place (i : Insertion) : List Insertion → List Insertion
  | [] => [i]
  | j :: rest => if j.notAfter i then j :: place i rest else i :: j :: rest

/-- The insertions by offset and side; those that agree in both keep their order. -/
def sorted (insertions : List Insertion) : List Insertion :=
  insertions.foldl (fun done i => place i done) []

/-- The text from byte `position` on with the sorted insertions.  There is none where an insertion
lies before `position`, past the end of the text, or inside the encoding of a character. -/
def weave? (position : Nat) (text : List Char) : List Insertion → Option (List Char)
  | [] => some text
  | i :: rest =>
    if i.offset < position then none
    else
      match Text.splitAt? (i.offset - position) text with
      | none => none
      | some (before, after) =>
        (weave? i.offset after rest).map fun woven => before ++ i.text.toList ++ woven

/-- The snapshot with all insertions, if it can be cut at each of them in turn. -/
def edited? (s : Session) : Option String :=
  (weave? 0 s.snapshot.toList (sorted s.insertions)).map String.ofList

/-- The snapshot with all insertions. -/
def apply (s : Session) : String :=
  s.edited?.getD s.snapshot

/-- The texts inserted at a byte position, left before right. -/
def textsAt (insertions : List Insertion) (position : Nat) : List Char :=
  let on (side : Side) :=
    insertions.filter fun i => i.offset == position && i.side == side
  (on .left ++ on .right).flatMap fun i => i.text.toList

/-- The text from byte `position` on: at each position what is inserted there, then the
character. -/
def layoutFrom (insertions : List Insertion) (position : Nat) : List Char → List Char
  | [] => textsAt insertions position
  | c :: cs =>
    textsAt insertions position ++ c :: layoutFrom insertions (position + c.utf8Size) cs

/-- The edited text, position by position. -/
def layout (s : Session) : String :=
  String.ofList (layoutFrom s.insertions 0 s.snapshot.toList)

end Session

end ModelGrid.Edit
