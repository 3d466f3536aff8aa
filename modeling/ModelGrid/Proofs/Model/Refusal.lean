import ModelGrid.Proofs.Model.Reading
import ModelGrid.Proofs.Text.Line

/-!
# Sources that are refused

A source is refused for its first faulty line, and for nothing else.  What is wrong with a line is said
of the line and the lines above it (`Line.HasFault`); that a reading stops there, and says so, is proved
by taking the lines one by one.

The induction needs what is pending to agree with the lines above (`Hangs`): nothing is pending as long
as there was no attribute.  A line without a fault keeps this up whatever it is, so that it is there when
the first faulty line comes.

## Main definitions

* `Line.HasFault`: what is wrong with a line below others.
* `Faultless`: no line of a source is faulty.
* `CutAt`: a source is cut into lines at one of them.
* `RefusedFor`: a source is refused for a line of it.

## Main results

* `readLines_cons_of_hasFault`, `exists_readLines_cons`: what a line does to a reading, by its fault.
* `exists_readLines_append`: lines without a fault are read, whatever follows them.
* `refusedFor_of_readSource`: the sources that are refused, and for what.
-/

namespace ModelGrid.Model

namespace Line

/-! ### Faults of lines -/

/-- The name begins with a lower case letter. -/
def BeginsLow (name : List Char) : Prop :=
  ∃ c cs, name = c :: cs ∧ Text.isLowercase c = true

/-- What is wrong with a line, below the lines `above`.  A line that carries nothing has no fault,
whatever else it is. -/
inductive HasFault (above : List (List Char)) (line : List Char) : LineFault → Prop
  | unrecognized (meaningful : Meaningful line) (no_attribute : ¬ ['['] <+: line)
      (no_property : ¬ "public".toList <+: line) : HasFault above line .unrecognized
  | typeOrNameMissing (declares : IsProperty line) (short : (Text.words line).length < 3) :
      HasFault above line .typeOrNameMissing
  | nameWithoutLetter (declares : IsProperty line) {name : List Char} {dataType : DataType}
      (named : Declares line name dataType) (not_low : ¬ BeginsLow name) :
      HasFault above line .nameWithoutLetter
  | attributeMissing (declares : IsProperty line) {name : List Char} {dataType : DataType}
      (named : Declares line name dataType) (low : BeginsLow name)
      (none_above : ∀ l ∈ above, ¬ IsAttribute l) : HasFault above line .attributeMissing

variable {line : List Char}

theorem startsWith_eq_false {part : List Char} (h : ¬ part <+: line) :
    Text.startsWith part line = false :=
  Bool.eq_false_iff.mpr fun begins => h (Text.startsWith_iff.mp begins)

theorem carriesNothing_eq_false (meaningful : Meaningful line) : carriesNothing line = false :=
  Bool.eq_false_iff.mpr fun nothing => carriesNothing_iff.mp nothing meaningful

theorem ofText_of_not_meaningful (nothing : ¬ Meaningful line) : ofText line = .ignorable := by
  rw [ofText, if_pos (carriesNothing_iff.mpr nothing)]

theorem ofText_of_isAttribute (marker : IsAttribute line) : ofText line = .titled (titleOf line) := by
  rw [ofText, carriesNothing_eq_false marker.1, Text.startsWith_iff.mpr marker.2]
  rfl

theorem ofText_of_isProperty (declares : IsProperty line) : ofText line = propertyOf line := by
  have no_attribute : ¬ ['['] <+: line :=
    fun bracket => IsAttribute.not_isProperty ⟨declares.1, bracket⟩ declares
  rw [ofText, carriesNothing_eq_false declares.1, startsWith_eq_false no_attribute,
    Text.startsWith_iff.mpr declares.2]
  rfl

theorem ofText_of_unrecognized (meaningful : Meaningful line) (no_attribute : ¬ ['['] <+: line)
    (no_property : ¬ "public".toList <+: line) : ofText line = .faulty .unrecognized := by
  rw [ofText, carriesNothing_eq_false meaningful, startsWith_eq_false no_attribute,
    startsWith_eq_false no_property]
  rfl

/-- A line of fewer than three words declares nothing, any other line does. -/
theorem short_or_declares (line : List Char) :
    (Text.words line).length < 3 ∧ propertyOf line = .faulty .typeOrNameMissing ∨
      ∃ name dataType, Declares line name dataType := by
  rw [propertyOf]
  split
  next declared identifier rest words =>
    exact .inr ⟨_, _, declared, identifier, by simp [words], by simp [words], rfl, rfl⟩
  next few =>
    refine .inl ⟨?_, rfl⟩
    rcases words : Text.words line with _ | ⟨first, _ | ⟨second, _ | ⟨third, rest⟩⟩⟩
    · simp
    · simp
    · simp
    · exact absurd words (few first second third rest)

theorem not_declares_of_short (short : (Text.words line).length < 3) {name : List Char}
    {dataType : DataType} : ¬ Declares line name dataType := by
  rintro ⟨_, _, _, third, _⟩
  have := (List.getElem?_eq_some_iff.mp third).1
  omega

/-- What a line is that declares the type and the name, by the first letter of the name. -/
theorem propertyOf_of_declares {name : List Char} {dataType : DataType}
    (named : Declares line name dataType) :
    (BeginsLow name ∧ propertyOf line = .property name dataType) ∨
      (¬ BeginsLow name ∧ propertyOf line = .faulty .nameWithoutLetter) := by
  obtain ⟨declared, identifier, second, third, rfl, rfl⟩ := named
  rcases words : Text.words line with _ | ⟨first, _ | ⟨second', _ | ⟨third', rest⟩⟩⟩
  · simp [words] at third
  · simp [words] at third
  · simp [words] at third
  · obtain rfl : second' = declared := by simpa [words] using second
    obtain rfl : third' = identifier := by simpa [words] using third
    have low : ((uncapitalize third').head?.map Text.isLowercase).getD false = true ↔
        BeginsLow (uncapitalize third') := by
      cases uncapitalize third' with
      | nil => simp [BeginsLow]
      | cons c cs => simp [BeginsLow]
    simp only [propertyOf, words]
    split
    next begins => exact .inl ⟨low.mp begins, rfl⟩
    next begins => exact .inr ⟨fun is_low => begins (low.mpr is_low), rfl⟩

/-- A line that carries nothing has no fault. -/
theorem HasFault.meaningful {above : List (List Char)} {fault : LineFault}
    (h : HasFault above line fault) : Meaningful line := by
  cases h with
  | unrecognized meaningful => exact meaningful
  | typeOrNameMissing declares => exact declares.1
  | nameWithoutLetter declares => exact declares.1
  | attributeMissing declares => exact declares.1

/-- **A line has one fault at most.** -/
theorem HasFault.unique {above : List (List Char)} {fault fault' : LineFault}
    (h : HasFault above line fault) (h' : HasFault above line fault') : fault = fault' := by
  have same {name name' : List Char} {dataType dataType' : DataType}
      (one : Declares line name dataType) (other : Declares line name' dataType') : name = name' := by
    obtain ⟨_, identifier, _, third, rfl, _⟩ := one
    obtain ⟨_, identifier', _, third', rfl, _⟩ := other
    rw [third] at third'
    cases third'
    rfl
  cases h with
  | unrecognized _ _ no_property =>
    cases h' with
    | unrecognized => rfl
    | typeOrNameMissing declares => exact absurd declares.2 no_property
    | nameWithoutLetter declares => exact absurd declares.2 no_property
    | attributeMissing declares => exact absurd declares.2 no_property
  | typeOrNameMissing declares short =>
    cases h' with
    | unrecognized _ _ no_property => exact absurd declares.2 no_property
    | typeOrNameMissing => rfl
    | nameWithoutLetter _ named => exact absurd named (not_declares_of_short short)
    | attributeMissing _ named => exact absurd named (not_declares_of_short short)
  | nameWithoutLetter declares named not_low =>
    cases h' with
    | unrecognized _ _ no_property => exact absurd declares.2 no_property
    | typeOrNameMissing _ short => exact absurd named (not_declares_of_short short)
    | nameWithoutLetter => rfl
    | attributeMissing _ named' low => exact absurd (same named' named ▸ low) not_low
  | attributeMissing declares named low =>
    cases h' with
    | unrecognized _ _ no_property => exact absurd declares.2 no_property
    | typeOrNameMissing _ short => exact absurd named (not_declares_of_short short)
    | nameWithoutLetter _ named' not_low => exact absurd (same named named' ▸ low) not_low
    | attributeMissing => rfl

end Line

open Line

/-! ### One line of a reading -/

/-- Nothing is pending behind lines without an attribute, and something behind others. -/
def Hangs (above : List (List Char)) (pending : Option (List Char)) : Prop :=
  pending = none ↔ ∀ line ∈ above, ¬ IsAttribute line

variable {above before : List (List Char)} {pending : Option (List Char)} {raw : List Char}

/-- A line that is no attribute leaves pending what is. -/
theorem Hangs.append {line : List Char} (h : Hangs above pending) (other : ¬ IsAttribute line) :
    Hangs (above ++ [line]) pending := by
  refine h.trans ⟨fun none_above l mem => ?_, fun none_above l mem => none_above l (by simp [mem])⟩
  rcases List.mem_append.mp mem with inside | last
  · exact none_above l inside
  · exact List.mem_singleton.mp last ▸ other

theorem Hangs.of_attribute {line title : List Char} (marker : IsAttribute line) :
    Hangs (above ++ [line]) (some title) :=
  ⟨nofun, fun none_above => absurd marker (none_above line (by simp))⟩

/-- **A faulty line** ends the reading with its fault. -/
theorem readLines_cons_of_hasFault {fault : LineFault} (hangs : Hangs above pending)
    (has : HasFault above (normalize raw) fault) (number : Nat) (rest : List (List Char)) :
    readLines number pending (raw :: rest) = .error ⟨number, String.ofList (normalize raw), fault⟩ := by
  rw [readLines]
  cases has with
  | unrecognized meaningful no_attribute no_property =>
    simp only [ofText_of_unrecognized meaningful no_attribute no_property]
  | typeOrNameMissing declares short =>
    rcases short_or_declares (normalize raw) with ⟨_, line⟩ | ⟨_, _, named⟩
    · simp only [ofText_of_isProperty declares, line]
    · exact absurd named (not_declares_of_short short)
  | nameWithoutLetter declares named not_low =>
    rcases propertyOf_of_declares named with ⟨low, _⟩ | ⟨_, line⟩
    · exact absurd low not_low
    · simp only [ofText_of_isProperty declares, line]
  | attributeMissing declares named low none_above =>
    rcases propertyOf_of_declares named with ⟨_, line⟩ | ⟨not_low, _⟩
    · simp only [ofText_of_isProperty declares, line, hangs.mpr none_above]
    · exact absurd low not_low

/-- **A line without a fault** is read, and the reading goes on behind it. -/
theorem exists_readLines_cons (hangs : Hangs above pending)
    (sound : ∀ fault, ¬ HasFault above (normalize raw) fault) :
    ∃ pending' front, Hangs (above ++ [normalize raw]) pending' ∧ ∀ number rest,
      readLines number pending (raw :: rest) =
        (readLines (number + 1) pending' rest).map (front ++ ·) := by
  have passed (number : Nat) (pending' : Option (List Char)) (rest : List (List Char)) :
      readLines (number + 1) pending' rest =
        (readLines (number + 1) pending' rest).map (([] : List Property) ++ ·) := by
    cases readLines (number + 1) pending' rest <;> rfl
  by_cases meaningful : Meaningful (normalize raw)
  case neg =>
    refine ⟨pending, [], hangs.append fun marker => meaningful marker.1, fun number rest => ?_⟩
    rw [readLines]
    simp only [ofText_of_not_meaningful meaningful]
    exact passed number pending rest
  by_cases bracket : ['['] <+: normalize raw
  · have marker : IsAttribute (normalize raw) := ⟨meaningful, bracket⟩
    refine ⟨some (titleOf (normalize raw)), [], .of_attribute marker, fun number rest => ?_⟩
    rw [readLines]
    simp only [ofText_of_isAttribute marker]
    exact passed number _ rest
  by_cases declared : "public".toList <+: normalize raw
  case neg => exact absurd (.unrecognized meaningful bracket declared) (sound _)
  have declares : IsProperty (normalize raw) := ⟨meaningful, declared⟩
  rcases short_or_declares (normalize raw) with ⟨short, _⟩ | ⟨name, dataType, named⟩
  · exact absurd (.typeOrNameMissing declares short) (sound _)
  rcases propertyOf_of_declares named with ⟨low, line⟩ | ⟨not_low, _⟩
  case inr => exact absurd (.nameWithoutLetter declares named not_low) (sound _)
  cases pending with
  | none => exact absurd (.attributeMissing declares named low (hangs.mp rfl)) (sound _)
  | some title =>
    refine ⟨some title, [⟨String.ofList name, dataType, String.ofList title⟩],
      hangs.append fun marker => bracket marker.2, fun number rest => ?_⟩
    rw [readLines]
    simp only [ofText_of_isProperty declares, line]
    cases readLines (number + 1) (some title) rest <;> rfl

/-! ### Lines of a reading -/

/-- None of the lines is faulty, below the lines `above` and those of them that stand above it. -/
def FaultlessBelow (above lines : List (List Char)) : Prop :=
  ∀ front line back fault, lines = front ++ line :: back →
    ¬ HasFault (above ++ front.map normalize) (normalize line) fault

/-- None of the lines is faulty. -/
abbrev Faultless (lines : List (List Char)) : Prop := FaultlessBelow [] lines

/-- **Lines without a fault** are read, whatever follows them. -/
theorem exists_readLines_append (hangs : Hangs above pending) (sound : FaultlessBelow above before) :
    ∃ pending' ps, Hangs (above ++ before.map normalize) pending' ∧ ∀ number rest,
      readLines number pending (before ++ rest) =
        (readLines (number + before.length) pending' rest).map (ps ++ ·) := by
  induction before generalizing above pending with
  | nil =>
    refine ⟨pending, [], by simpa using hangs, fun number rest => ?_⟩
    show readLines number pending rest = (readLines number pending rest).map _
    cases readLines number pending rest <;> rfl
  | cons raw lines ih =>
    have here : ∀ fault, ¬ HasFault above (normalize raw) fault := by
      intro fault
      simpa using sound [] raw lines fault rfl
    have later : FaultlessBelow (above ++ [normalize raw]) lines := by
      intro front line back fault cut
      simpa using sound (raw :: front) line back fault (by rw [cut, List.cons_append])
    obtain ⟨between, front, hangs', step⟩ := exists_readLines_cons hangs here
    obtain ⟨pending', ps, hangs'', run⟩ := ih hangs' later
    refine ⟨pending', front ++ ps, by simpa using hangs'', fun number rest => ?_⟩
    have count : number + 1 + lines.length = number + (raw :: lines).length := by
      rw [List.length_cons]
      omega
    rw [List.cons_append, step, run, count]
    cases readLines (number + (raw :: lines).length) pending' rest with
    | error malformed => rfl
    | ok later => simp [Except.map]

theorem hangs_nil : Hangs [] none :=
  ⟨fun _ _ mem => absurd mem List.not_mem_nil, fun _ => rfl⟩

/-- Lines without a fault are accepted. -/
theorem exists_readLines_of_faultless {lines : List (List Char)} (sound : Faultless lines) :
    ∃ ps, readLines 1 none lines = .ok ps := by
  obtain ⟨pending, ps, _, run⟩ := exists_readLines_append hangs_nil sound
  have whole := run 1 []
  rw [List.append_nil] at whole
  exact ⟨ps ++ [], whole⟩

/-- The first faulty line ends the reading, whatever follows it. -/
theorem readLines_of_hasFault {fault : LineFault} (sound : Faultless before)
    (has : HasFault (before.map normalize) (normalize raw) fault) (after : List (List Char)) :
    readLines 1 none (before ++ raw :: after) =
      .error ⟨before.length + 1, String.ofList (normalize raw), fault⟩ := by
  obtain ⟨pending, ps, hangs, run⟩ := exists_readLines_append hangs_nil sound
  rw [run, readLines_cons_of_hasFault (by simpa using hangs) has, Nat.add_comm 1]
  rfl

/-- One more line without a fault. -/
theorem Faultless.concat {last : List Char} (sound : Faultless before)
    (here : ∀ fault, ¬ HasFault (before.map normalize) (normalize last) fault) :
    Faultless (before ++ [last]) := by
  intro front line back fault cut has
  rcases List.eq_nil_or_concat back with rfl | ⟨back', end_line, rfl⟩
  · obtain ⟨rfl, same⟩ := List.append_inj' cut rfl
    cases same
    exact here fault (by simpa using has)
  · have inside : before ++ [last] = (front ++ line :: back') ++ [end_line] := by simpa using cut
    exact sound front line back' fault (List.append_inj' inside rfl).1 has

/-- **Among lines there is a first faulty one**, or none at all. -/
theorem faultless_or_exists_first (lines : List (List Char)) :
    Faultless lines ∨ ∃ before raw after fault, lines = before ++ raw :: after ∧ Faultless before ∧
      HasFault (before.map normalize) (normalize raw) fault := by
  induction lines using List.reverseRecOn with
  | nil => exact .inl fun front line back _ cut => by simp at cut
  | append_singleton init last ih =>
    rcases ih with sound | ⟨before, raw, after, fault, cut, sound, has⟩
    · by_cases faulty : ∃ fault, HasFault (init.map normalize) (normalize last) fault
      · obtain ⟨fault, has⟩ := faulty
        exact .inr ⟨init, last, [], fault, rfl, sound, has⟩
      · exact .inl (Faultless.concat sound fun fault has => faulty ⟨fault, has⟩)
    · exact .inr ⟨before, raw, after ++ [last], fault, by simp [cut], sound, has⟩

/-! ### Sources -/

/-- The lines, each with a line feed behind it. -/
def terminated (lines : List (List Char)) : List Char := lines.flatMap (· ++ ['\n'])

/-- The lines, each with a line feed in front of it. -/
def continued (lines : List (List Char)) : List Char := lines.flatMap ('\n' :: ·)

theorem splitOn_terminated_append {lines : List (List Char)} (clean : ∀ line ∈ lines, '\n' ∉ line)
    (cs : List Char) : Text.splitOn '\n' (terminated lines ++ cs) = lines ++ Text.splitOn '\n' cs := by
  induction lines with
  | nil => rfl
  | cons line rest ih =>
    have later := ih fun l mem => clean l (List.mem_cons_of_mem line mem)
    have whole : terminated (line :: rest) ++ cs = line ++ '\n' :: (terminated rest ++ cs) := by
      simp [terminated]
    rw [whole, Text.splitOn_append_cons (clean line (by simp)), later, List.cons_append]

theorem splitOn_append_continued {raw : List Char} {lines : List (List Char)} (one : '\n' ∉ raw)
    (clean : ∀ line ∈ lines, '\n' ∉ line) :
    Text.splitOn '\n' (raw ++ continued lines) = raw :: lines := by
  induction lines generalizing raw with
  | nil =>
    rw [continued, List.flatMap_nil, List.append_nil]
    exact Text.splitOn_of_not_mem one
  | cons line rest ih =>
    have later := ih (clean line (by simp)) fun l mem => clean l (List.mem_cons_of_mem line mem)
    have whole : raw ++ continued (line :: rest) = raw ++ '\n' :: (line ++ continued rest) := by
      simp [continued]
    rw [whole, Text.splitOn_append_cons one, later]

/-- The source is made of lines: those in `before`, the line `raw`, and those in `after`. -/
structure CutAt (source : String) (before : List (List Char)) (raw : List Char)
    (after : List (List Char)) : Prop where
  whole : source.toList = terminated before ++ raw ++ continued after
  clean : ∀ line ∈ before ++ raw :: after, '\n' ∉ line

theorem splitOn_of_clean {after : List (List Char)}
    (clean : ∀ line ∈ before ++ raw :: after, '\n' ∉ line) :
    Text.splitOn '\n' (terminated before ++ raw ++ continued after) = before ++ raw :: after := by
  rw [List.append_assoc, splitOn_terminated_append fun line mem => clean line (by simp [mem]),
    splitOn_append_continued (clean raw (by simp)) fun line mem => clean line (by simp [mem])]

theorem cutAt_iff {source : String} {after : List (List Char)} :
    CutAt source before raw after ↔ Text.splitOn '\n' source.toList = before ++ raw :: after := by
  constructor
  · rintro ⟨whole, clean⟩
    rw [whole, splitOn_of_clean clean]
  · intro lines
    have clean : ∀ line ∈ before ++ raw :: after, '\n' ∉ line := by
      rw [← lines]
      exact fun line mem => Text.not_mem_of_mem_splitOn mem
    exact ⟨Text.splitOn_injective '\n' (lines.trans (splitOn_of_clean clean).symm), clean⟩

/-- A source is refused for one of its lines: no line above it is faulty, and what is reported is the
number of the line, which is that of the line feeds in front of it and one more, the line itself without
its accessors and the blanks at its ends, and the one fault that it has. -/
structure RefusedFor (source : String) (m : Malformed) (before : List (List Char)) (raw : List Char)
    (after : List (List Char)) : Prop where
  cut : CutAt source before raw after
  first : Faultless before
  line : m.line = (terminated before).count '\n' + 1
  text : m.text = String.ofList (normalize raw)
  fault : ∀ fault, HasFault (before.map normalize) (normalize raw) fault ↔ fault = m.fault

theorem count_terminated {lines : List (List Char)} (clean : ∀ line ∈ lines, '\n' ∉ line) :
    (terminated lines).count '\n' = lines.length := by
  induction lines with
  | nil => rfl
  | cons line rest ih =>
    have later := ih fun l mem => clean l (List.mem_cons_of_mem line mem)
    have here : line.count '\n' = 0 := List.count_eq_zero.mpr (clean line (by simp))
    have whole : terminated (line :: rest) = line ++ '\n' :: terminated rest := by simp [terminated]
    rw [whole, List.count_append, here, List.count_cons_self, later, List.length_cons, Nat.zero_add]

/-- **A source is refused** if and only if a line of it is faulty.  It is then refused for the first one;
the lines in front of it are a source that is accepted, and whatever lines stand in the place of those
behind it, the source is refused for the same. -/
theorem refusedFor_of_readSource (source : String) :
    ((∃ m, readSource source = .error m) ↔ ∃ before raw after fault, CutAt source before raw after ∧
      HasFault (before.map normalize) (normalize raw) fault) ∧
    ∀ m, readSource source = .error m → ∃ before raw after, RefusedFor source m before raw after ∧
      (∃ ps, readSource (String.ofList (terminated before)) = .ok ps) ∧
      ∀ after', (∀ line ∈ after', '\n' ∉ line) →
        readSource (String.ofList (terminated before ++ raw ++ continued after')) = .error m := by
  have first := faultless_or_exists_first (Text.splitOn '\n' source.toList)
  constructor
  · constructor
    · rintro ⟨m, refused⟩
      rcases first with sound | ⟨before, raw, after, fault, cut, _, has⟩
      · obtain ⟨ps, accepted⟩ := exists_readLines_of_faultless sound
        rw [readSource, accepted] at refused
        cases refused
      · exact ⟨before, raw, after, fault, cutAt_iff.mpr cut, has⟩
    · rintro ⟨before, raw, after, fault, cut, has⟩
      rcases first with sound | ⟨_, _, after', _, cut', sound, has'⟩
      · exact absurd has (sound before raw after fault (cutAt_iff.mp cut))
      · exact ⟨_, by rw [readSource, cut', readLines_of_hasFault sound has' after']⟩
  · intro m refused
    rcases first with sound | ⟨before, raw, after, fault, cut, sound, has⟩
    · obtain ⟨ps, accepted⟩ := exists_readLines_of_faultless sound
      rw [readSource, accepted] at refused
      cases refused
    · have clean := (cutAt_iff.mpr cut).clean
      have clean_before : ∀ line ∈ before, '\n' ∉ line := fun line mem => clean line (by simp [mem])
      -- the first faulty line is the one that is reported
      have reported : m = ⟨before.length + 1, String.ofList (normalize raw), fault⟩ := by
        rw [readSource, cut, readLines_of_hasFault sound has] at refused
        exact (Except.error.inj refused).symm
      subst reported
      refine ⟨before, raw, after, ⟨cutAt_iff.mpr cut, sound, ?_, rfl, ?_⟩, ?_, fun after' clean' => ?_⟩
      · rw [count_terminated clean_before]
      · exact fun fault' => ⟨fun has' => has'.unique has, fun same => same ▸ has⟩
      · -- behind the last line feed there is one more line, which is empty
        have ended : Faultless (before ++ [[]]) :=
          Faultless.concat sound fun _ has => has.meaningful.1 rfl
        have lines : Text.splitOn '\n' (terminated before) = before ++ [[]] := by
          simpa [Text.splitOn] using splitOn_terminated_append clean_before []
        rw [readSource, String.toList_ofList, lines]
        exact exists_readLines_of_faultless ended
      · have clean_all : ∀ line ∈ before ++ raw :: after', '\n' ∉ line := by
          intro line mem
          rcases List.mem_append.mp mem with mem | mem
          · exact clean_before line mem
          · rcases List.mem_cons.mp mem with rfl | mem
            · exact clean line (by simp)
            · exact clean' line mem
        rw [readSource, String.toList_ofList, splitOn_of_clean clean_all,
          readLines_of_hasFault sound has after']

/-- A property above the first attribute, with a faulty line behind it. -/
theorem refusedFor_of_readSource_untitled :
    let source := "using System;\n\n\tpublic int Id \x7b get; set; \x7d\r\n[Column(\"A\")]\nprivate"
    let m : Malformed := ⟨3, "public int Id", .attributeMissing⟩
    readSource source = .error m ∧ ∃ before raw after, RefusedFor source m before raw after ∧
      (∃ ps, readSource (String.ofList (terminated before)) = .ok ps) ∧
      ∀ after', (∀ line ∈ after', '\n' ∉ line) →
        readSource (String.ofList (terminated before ++ raw ++ continued after')) = .error m := by
  intro source m
  have refused : readSource source = .error m := by decide +kernel
  exact ⟨refused, (refusedFor_of_readSource source).2 m refused⟩

end ModelGrid.Model
