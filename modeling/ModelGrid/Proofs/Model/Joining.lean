import ModelGrid.Proofs.Model.Reading
import ModelGrid.Proofs.Text.Line

/-!
# Sources that are joined

What a line does to a reading depends on the line and on the title that is pending, and on nothing else
(`readLine`).  So lines behind others are read as they would be alone, from what the
others leave pending and with their numbers moved (`readLines_append`).

A source that is accepted alone never looks at what was pending when it began, and neither does one that
is refused for anything but a missing attribute (`readLines_of_none`): a property above its first
attribute would have been a fault.  This is why models can be joined.

## Main definitions

* `readLine`: what a line does to a reading.
* `pendingBehind`: the title that is pending behind lines.
* `Malformed.moved`: a faulty line that stands further down.

## Main results

* `readLines_cons_of_error`, `readLines_cons_of_ok`: a reading line by line.
* `readLines_append`: a reading part by part.
* `readSource_join`: what two sources are read as together.
-/

namespace ModelGrid.Model

open Line

/-! ### One line of a reading -/

/-- What a normalised line does to a reading below a pending title: it is faulty, or leaves a title
pending and declares properties. -/
def readLine (pending : Option (List Char)) (line : List Char) :
    Except LineFault (Option (List Char) × List Property) :=
  match ofText line with
  | .ignorable => .ok (pending, [])
  | .titled title => .ok (some title, [])
  | .faulty fault => .error fault
  | .property name dataType =>
    match pending with
    | none => .error .attributeMissing
    | some title => .ok (pending, [⟨String.ofList name, dataType, String.ofList title⟩])

theorem map_nil_append (result : Except Malformed (List Property)) :
    result.map ([] ++ ·) = result := by
  cases result <;> rfl

variable {number : Nat} {pending : Option (List Char)} {raw : List Char} {rest : List (List Char)}

/-- **A faulty line** ends the reading. -/
theorem readLines_cons_of_error {fault : LineFault}
    (faulty : readLine pending (normalize raw) = .error fault) :
    readLines number pending (raw :: rest) = .error ⟨number, String.ofList (normalize raw), fault⟩ := by
  rw [readLine] at faulty
  rw [readLines]
  cases line : ofText (normalize raw) with
  | ignorable => rw [line] at faulty; cases faulty
  | titled title => rw [line] at faulty; cases faulty
  | faulty fault => rw [line] at faulty; cases faulty; rfl
  | property name dataType =>
    rw [line] at faulty
    cases pending with
    | none => cases faulty; rfl
    | some title => cases faulty

/-- **Any other line** adds what it declares, and the reading goes on below it. -/
theorem readLines_cons_of_ok {next : Option (List Char)} {front : List Property}
    (step : readLine pending (normalize raw) = .ok (next, front)) :
    readLines number pending (raw :: rest) =
      (readLines (number + 1) next rest).map (front ++ ·) := by
  rw [readLine] at step
  rw [readLines]
  cases line : ofText (normalize raw) with
  | ignorable => rw [line] at step; cases step; exact (map_nil_append _).symm
  | titled title => rw [line] at step; cases step; exact (map_nil_append _).symm
  | faulty fault => rw [line] at step; cases step
  | property name dataType =>
    rw [line] at step
    cases pending with
    | none => cases step
    | some title =>
      cases step
      show _ = (readLines (number + 1) (some title) rest).map _
      cases readLines (number + 1) (some title) rest <;> rfl

/-- A property is the one thing that is read otherwise below no attribute. -/
theorem readLine_of_none {line : List Char} (attributed : readLine none line ≠ .error .attributeMissing)
    (pending : Option (List Char)) :
    (∃ fault, readLine none line = .error fault ∧ readLine pending line = .error fault) ∨
    (readLine none line = .ok (none, []) ∧ readLine pending line = .ok (pending, [])) ∨
    ∃ title, readLine none line = .ok (some title, []) ∧
      readLine pending line = .ok (some title, []) := by
  revert attributed
  rw [readLine, readLine]
  cases ofText line with
  | ignorable => exact fun _ => .inr (.inl ⟨rfl, rfl⟩)
  | titled title => exact fun _ => .inr (.inr ⟨title, rfl, rfl⟩)
  | faulty fault => exact fun _ => .inl ⟨fault, rfl, rfl⟩
  | property => exact fun attributed => absurd rfl attributed

/-! ### Lines behind others -/

/-- A faulty line with more lines above it. -/
def Malformed.moved (count : Nat) (m : Malformed) : Malformed :=
  { m with line := count + m.line }

/-- The lines count on from the number they begin with. -/
theorem readLines_moved (count number : Nat) (pending : Option (List Char)) (lines : List (List Char)) :
    readLines (count + number) pending lines =
      (readLines number pending lines).mapError (Malformed.moved count) := by
  induction lines generalizing number pending with
  | nil => rfl
  | cons raw rest ih =>
    cases step : readLine pending (normalize raw) with
    | error fault =>
      rw [readLines_cons_of_error step, readLines_cons_of_error step]
      rfl
    | ok state =>
      rw [readLines_cons_of_ok step, readLines_cons_of_ok step, Nat.add_assoc, ih]
      cases readLines (number + 1) state.1 rest <;> rfl

/-- The title that is pending behind lines. -/
def pendingBehind (pending : Option (List Char)) : List (List Char) → Option (List Char)
  | [] => pending
  | raw :: rest =>
    match ofText (normalize raw) with
    | .titled title => pendingBehind (some title) rest
    | _ => pendingBehind pending rest

theorem pendingBehind_cons {next : Option (List Char)} {front : List Property}
    (step : readLine pending (normalize raw) = .ok (next, front)) (rest : List (List Char)) :
    pendingBehind pending (raw :: rest) = pendingBehind next rest := by
  unfold readLine at step
  rw [pendingBehind]
  cases line : ofText (normalize raw) with
  | ignorable => rw [line] at step; cases step; rfl
  | titled title => rw [line] at step; cases step; rfl
  | faulty fault => rw [line] at step; cases step
  | property name dataType =>
    rw [line] at step
    cases pending with
    | none => cases step
    | some title => cases step; rfl

/-- **Lines behind others** are read from the title that these leave pending. -/
theorem readLines_append (number : Nat) (pending : Option (List Char)) (xs ys : List (List Char)) :
    readLines number pending (xs ++ ys) =
      (readLines number pending xs).bind fun ps =>
        (readLines (number + xs.length) (pendingBehind pending xs) ys).map (ps ++ ·) := by
  induction xs generalizing number pending with
  | nil =>
    show readLines number pending ys = (readLines number pending ys).map _
    cases readLines number pending ys <;> rfl
  | cons raw xs ih =>
    rw [List.cons_append]
    cases step : readLine pending (normalize raw) with
    | error fault =>
      rw [readLines_cons_of_error step, readLines_cons_of_error step]
      rfl
    | ok state =>
      have count : number + 1 + xs.length = number + (raw :: xs).length := by
        rw [List.length_cons]
        omega
      rw [readLines_cons_of_ok step, readLines_cons_of_ok step, ih, count, pendingBehind_cons step]
      cases readLines (number + 1) state.1 xs with
      | error malformed => rfl
      | ok ps =>
        simp only [Except.bind, Except.map]
        cases readLines (number + (raw :: xs).length) (pendingBehind state.1 xs) ys with
        | error malformed => rfl
        | ok qs => exact congrArg Except.ok (List.append_assoc state.2 ps qs).symm

/-- **What is pending is never looked at** by lines that are accepted without it, or refused for
anything but its absence. -/
theorem readLines_of_none {number : Nat} {lines : List (List Char)}
    (attributed : ∀ m, readLines number none lines = .error m → m.fault ≠ .attributeMissing)
    (pending : Option (List Char)) :
    readLines number pending lines = readLines number none lines := by
  induction lines generalizing number pending with
  | nil => rfl
  | cons raw rest ih =>
    have here : readLine none (normalize raw) ≠ .error .attributeMissing := by
      intro missing
      exact attributed _ (readLines_cons_of_error missing) rfl
    rcases readLine_of_none here pending with ⟨fault, alone, below⟩ | ⟨alone, below⟩ |
      ⟨title, alone, below⟩
    · rw [readLines_cons_of_error alone, readLines_cons_of_error below]
    · rw [readLines_cons_of_ok alone] at attributed ⊢
      rw [readLines_cons_of_ok below, ih fun m refused => attributed m (by rw [refused]; rfl)]
    · rw [readLines_cons_of_ok alone, readLines_cons_of_ok below]

/-! ### Joined sources -/

/-- The number of lines of a source: one more than it has line feeds. -/
def numberOfLines (source : String) : Nat :=
  source.toList.count '\n' + 1

/-- What two sources are read as with a line feed between them. -/
theorem readSource_append (a b : String) :
    readSource (a ++ "\n" ++ b) =
      (readSource a).bind fun ps =>
        ((readLines 1 (pendingBehind none (Text.splitOn '\n' a.toList))
          (Text.splitOn '\n' b.toList)).mapError (Malformed.moved (numberOfLines a))).map (ps ++ ·) := by
  have feed : "\n".toList = ['\n'] := by simp
  have count : 1 + (Text.splitOn '\n' a.toList).length = numberOfLines a + 1 := by
    rw [Text.length_splitOn, numberOfLines]
    omega
  rw [readSource, String.toList_append, String.toList_append, feed, List.append_assoc,
    List.singleton_append, Text.splitOn_append, readLines_append, count, readSource]
  simp only [readLines_moved]

/-- **Models can be joined**: two sources that are accepted have the properties of both, in their order.
Where the first is accepted and the second refused, for anything but a missing attribute, they are refused
together for the same line with the same fault, with its number moved by the lines of the first; and where
the first is refused, they are refused together for the same. -/
theorem readSource_join (a b : String) :
    (∀ ps qs, readSource a = .ok ps → readSource b = .ok qs →
      readSource (a ++ "\n" ++ b) = .ok (ps ++ qs)) ∧
    (∀ ps m, readSource a = .ok ps → readSource b = .error m → m.fault ≠ .attributeMissing →
      readSource (a ++ "\n" ++ b) = .error ⟨numberOfLines a + m.line, m.text, m.fault⟩) ∧
    ∀ m, readSource a = .error m → readSource (a ++ "\n" ++ b) = .error m := by
  have same {result : Except Malformed (List Property)} (alone : readSource b = result)
      (attributed : ∀ m, result = .error m → m.fault ≠ .attributeMissing)
      (pending : Option (List Char)) :
      readLines 1 pending (Text.splitOn '\n' b.toList) = result := by
    rw [← alone] at attributed ⊢
    exact readLines_of_none attributed pending
  refine ⟨fun ps qs first second => ?_, fun ps m first second other => ?_, fun m refused => ?_⟩
  · rw [readSource_append, first, same second nofun]
    rfl
  · have attributed : ∀ m', (.error m : Except Malformed (List Property)) = .error m' →
        m'.fault ≠ .attributeMissing := by
      rintro m' ⟨⟩
      exact other
    rw [readSource_append, first, same second attributed]
    rfl
  · rw [readSource_append, refused]
    rfl

/-- The second source begins with lines that carry nothing, and the first one leaves a title pending. -/
theorem readSource_join_pending :
    let a := "[Column(\"A\")]\npublic int Id \x7b get; set; \x7d\n[Column(\"B\")]"
    let b := "using System;\n[Column(\"C\")]\npublic bool Ok"
    let refused := "namespace N\n\tpublic int\r"
    readSource (a ++ "\n" ++ b) = .ok [⟨"id", .number, "A"⟩, ⟨"ok", .boolean, "C"⟩] ∧
      readSource (a ++ "\n" ++ refused) = .error ⟨3 + 2, "public int", .typeOrNameMissing⟩ ∧
      readSource (refused ++ "\n" ++ b) = .error ⟨2, "public int", .typeOrNameMissing⟩ := by
  intro a b refused
  have first : readSource a = .ok [⟨"id", .number, "A"⟩] := by decide +kernel
  have second : readSource b = .ok [⟨"ok", .boolean, "C"⟩] := by decide +kernel
  have faulty : readSource refused = .error ⟨2, "public int", .typeOrNameMissing⟩ := by decide +kernel
  have three : numberOfLines a = 3 := by decide +kernel
  refine ⟨(readSource_join a b).1 _ _ first second, ?_, (readSource_join refused b).2.2 _ faulty⟩
  rw [← three]
  exact (readSource_join a refused).2.1 _ _ first faulty (by decide)

end ModelGrid.Model
