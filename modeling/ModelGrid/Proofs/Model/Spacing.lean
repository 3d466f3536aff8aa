import ModelGrid.Proofs.Model.Declaration
import ModelGrid.Proofs.Model.Joining
import ModelGrid.Proofs.Text.Padding

/-!
# The layout of a source

How a source is laid out makes no difference to what it is read as: blanks at the ends of lines are lost
when the lines are normalized, and lines that carry nothing leave what is pending as it is.

Normalizing takes the accessors out before it trims, and the second may be put together by taking out
the first.  Neither reaches into blanks at the ends of a line, as accessors have a brace at both ends
(`normalize_pad`); and none is taken out of an ignored word, which has no brace in it
(`isInfix_normalize`).

A change of layout is a list of edits, one for each line of the one source or the other.  The induction is
over the edits, with the two readings below the same pending title and each at its own line number.

## Main definitions

* `IsIgnorable`: the line carries nothing.
* `LineEdit`: a line that stays with blanks around it, is inserted, or goes.
* `laidOut`: the source that edits make.
* `withReturns`: a source with a carriage return in front of each line feed.

## Main results

* `readLines_edits`: the two readings side by side.
* `readSource_laidOut`: what a source is read as in another layout.
-/

namespace ModelGrid.Model

open Line

namespace Line

/-! ### Blanks around lines -/

/-- **Blanks at the ends of a line** make no difference. -/
theorem normalize_pad {front back : List Char} (all_front : ∀ b ∈ front, Text.isBlank b = true)
    (all_back : ∀ b ∈ back, Text.isBlank b = true) (line : List Char) :
    normalize (front ++ line ++ back) = normalize line := by
  have braceless : '\x7d' ∉ back := by
    intro mem
    have blank := all_back _ mem
    revert blank
    decide
  have keeps (inner cs : List Char) :
      Text.eraseFirst (inner ++ ['\x7d']) (cs ++ back) =
        Text.eraseFirst (inner ++ ['\x7d']) cs ++ back :=
    Text.eraseFirst_append_of_not_mem braceless inner cs
  have erased : accessors.foldl (fun line accessor => Text.eraseFirst accessor line) (line ++ back) =
      accessors.foldl (fun line accessor => Text.eraseFirst accessor line) line ++ back :=
    (congrArg _ (keeps "\x7b get; set; ".toList line)).trans (keeps "\x7bget; set;".toList _)
  rw [List.append_assoc, normalize_append_of_blanks all_front, Line.normalize, erased,
    Text.trim_append_blanks all_back]
  rfl

theorem normalize_trim (raw : List Char) : normalize (Text.trim raw) = normalize raw := by
  obtain ⟨front, back, eq, all_front, all_back⟩ := Text.exists_blanks_trim raw
  conv_rhs => rw [eq, normalize_pad all_front all_back]

/-! ### Lines that carry nothing -/

/-- The line carries nothing. -/
def IsIgnorable (raw : List Char) : Prop := ¬ Meaningful (normalize raw)

instance : DecidablePred IsIgnorable :=
  fun raw => inferInstanceAs (Decidable ¬ Meaningful (normalize raw))

/-- An ignored word has solid ends and no brace, and is not in an accessor. -/
theorem ignoredWord_apart {word : List Char} (ignored : word ∈ ignoredWords) :
    (∃ first inner last, word = first :: (inner ++ [last]) ∧ Text.isBlank first = false ∧
      Text.isBlank last = false) ∧
    '\x7b' ∉ word ∧ '\x7d' ∉ word ∧ ∀ accessor ∈ accessors, ¬ word <:+: accessor := by
  rw [ignoredWords_eq] at ignored
  simp only [List.mem_cons, List.not_mem_nil, or_false] at ignored
  rcases ignored with rfl | rfl | rfl
  · exact ⟨⟨'u', ['s', 'i', 'n'], 'g', by decide⟩, by decide +kernel⟩
  · exact ⟨⟨'n', ['a', 'm', 'e', 's', 'p', 'a', 'c'], 'e', by decide⟩, by decide +kernel⟩
  · exact ⟨⟨'p', ['u', 'b', 'l', 'i', 'c', ' ', 'c', 'l', 'a', 's'], 's', by decide⟩,
      by decide +kernel⟩

/-- An ignored word is not taken apart with an accessor. -/
theorem isInfix_eraseFirst {word accessor cs : List Char} (ignored : word ∈ ignoredWords)
    (mem : accessor ∈ accessors) (inside : word <:+: cs) :
    word <:+: Text.eraseFirst accessor cs := by
  obtain ⟨-, no_open, no_close, apart⟩ := ignoredWord_apart ignored
  rcases Text.eraseFirst_cases accessor cs with same | ⟨before, after, rfl, erased⟩
  · rwa [same]
  · rw [erased]
    have braces : ∃ inner, accessor = '\x7b' :: (inner ++ ['\x7d']) := by
      rw [accessors_eq] at mem
      rcases List.mem_pair.mp mem with rfl | rfl
      · exact ⟨" get; set; ".toList, by decide⟩
      · exact ⟨"get; set;".toList, by decide⟩
    obtain ⟨inner, spelled⟩ := braces
    have whole : before ++ (accessor ++ after) =
        before ++ '\x7b' :: (inner ++ '\x7d' :: after) := by simp [spelled]
    rw [whole] at inside
    rcases Text.isInfix_of_isInfix_append_cons no_open inside with front | behind
    · exact front.trans (List.prefix_append before after).isInfix
    · rcases Text.isInfix_of_isInfix_append_cons no_close behind with within | back
      · refine absurd (within.trans ?_) (apart accessor mem)
        exact ⟨['\x7b'], ['\x7d'], by simp [spelled]⟩
      · exact back.trans (List.suffix_append before after).isInfix

/-- **An ignored word** is still in the line when it is normalized. -/
theorem isInfix_normalize {word raw : List Char} (ignored : word ∈ ignoredWords)
    (inside : word <:+: raw) : word <:+: normalize raw := by
  obtain ⟨⟨first, inner, last, spelled, first_solid, last_solid⟩, -⟩ := ignoredWord_apart ignored
  exact Text.isInfix_trim spelled first_solid last_solid
    (isInfix_eraseFirst ignored (by simp [accessors])
      (isInfix_eraseFirst ignored (by simp [accessors]) inside))

/-- A line carries nothing if it is blank, has nothing but a brace, or has an ignored word anywhere. -/
theorem isIgnorable_of_written {raw : List Char}
    (written : Text.trim raw = [] ∨ Text.trim raw = ['\x7b'] ∨ Text.trim raw = ['\x7d'] ∨
      ∃ word ∈ ignoredWords, word <:+: raw) : IsIgnorable raw := by
  rcases written with blank | opens | closes | ⟨word, ignored, inside⟩
  · rw [IsIgnorable, ← normalize_trim, blank]
    decide
  · rw [IsIgnorable, ← normalize_trim, opens]
    decide
  · rw [IsIgnorable, ← normalize_trim, closes]
    decide
  · exact fun meaningful => meaningful.2.2.2 word ignored (isInfix_normalize ignored inside)

end Line

/-! ### Lines of another layout -/

/-- What a change of layout does about one line. -/
inductive LineEdit
  /-- The line stays, with blanks around it. -/
  | pad (front line back : List Char)
  /-- The line is new. -/
  | insert (line : List Char)
  /-- The line goes. -/
  | delete (line : List Char)

namespace LineEdit

/-- The lines of the source before the edit. -/
def before : LineEdit → List (List Char)
  | pad _ line _ => [line]
  | insert _ => []
  | delete line => [line]

/-- The lines of the source after the edit. -/
def after : LineEdit → List (List Char)
  | pad front line back => [front ++ line ++ back]
  | insert line => [line]
  | delete _ => []

def isInsert : LineEdit → Bool
  | insert _ => true
  | _ => false

def isDelete : LineEdit → Bool
  | delete _ => true
  | _ => false

/-- Only blanks are put around the line, and only a line that carries nothing is inserted or goes; none
of it goes over the end of a line. -/
def Harmless : LineEdit → Prop
  | pad front _ back => ∀ b ∈ front ++ back, Text.isBlank b = true ∧ b ≠ '\n'
  | insert line => IsIgnorable line ∧ '\n' ∉ line
  | delete line => IsIgnorable line

instance : DecidablePred Harmless
  | pad front _ back =>
    List.decidableBAll (fun b => Text.isBlank b = true ∧ b ≠ '\n') (front ++ back)
  | insert line => inferInstanceAs (Decidable (IsIgnorable line ∧ '\n' ∉ line))
  | delete line => inferInstanceAs (Decidable (IsIgnorable line))

end LineEdit

open LineEdit

/-- The lines before a change of layout. -/
def linesBefore (edits : List LineEdit) : List (List Char) := edits.flatMap before

/-- The lines after a change of layout. -/
def linesAfter (edits : List LineEdit) : List (List Char) := edits.flatMap after

/-- The numbers of lines differ by those that are inserted and those that go. -/
theorem length_linesAfter (edits : List LineEdit) :
    (linesAfter edits).length + edits.countP isDelete =
      (linesBefore edits).length + edits.countP isInsert := by
  induction edits with
  | nil => rfl
  | cons edit rest ih =>
    have here : edit.after.length + (if edit.isDelete = true then 1 else 0) =
        edit.before.length + if edit.isInsert = true then 1 else 0 := by
      cases edit <;> rfl
    simp only [linesAfter, linesBefore, List.flatMap_cons, List.length_append,
      List.countP_cons] at ih ⊢
    omega

theorem readLine_of_isIgnorable {raw : List Char} (nothing : IsIgnorable raw)
    (pending : Option (List Char)) : readLine pending (normalize raw) = .ok (pending, []) := by
  rw [readLine, ofText, if_pos (carriesNothing_iff.mpr nothing)]

/-- A line that carries nothing is passed over. -/
theorem readLines_cons_of_isIgnorable {raw : List Char} (nothing : IsIgnorable raw) (number : Nat)
    (pending : Option (List Char)) (rest : List (List Char)) :
    readLines number pending (raw :: rest) = readLines (number + 1) pending rest := by
  rw [readLines_cons_of_ok (readLine_of_isIgnorable nothing pending), map_nil_append]

/-- Two readings, from their line numbers on, are accepted with the same properties, or refused for the
same line with the same fault, which is a line that stays. -/
def ReadAlike (number number' : Nat) (edits : List LineEdit)
    (result result' : Except Malformed (List Property)) : Prop :=
  (∃ ps, result = .ok ps ∧ result' = .ok ps) ∨
  ∃ above front line back below text fault, edits = above ++ .pad front line back :: below ∧
    result = .error ⟨number + (linesBefore above).length, text, fault⟩ ∧
    result' = .error ⟨number' + (linesAfter above).length, text, fault⟩

/-- One more edit in front, from which the two readings go on alike. -/
theorem ReadAlike.cons {number number' : Nat} {edits : List LineEdit}
    {result result' : Except Malformed (List Property)} (edit : LineEdit) (front : List Property)
    (alike : ReadAlike (number + edit.before.length) (number' + edit.after.length) edits result
      result') :
    ReadAlike number number' (edit :: edits) (result.map (front ++ ·)) (result'.map (front ++ ·)) := by
  rcases alike with ⟨ps, rfl, rfl⟩ | ⟨above, left, line, right, below, text, fault, rfl, rfl, rfl⟩
  · exact .inl ⟨front ++ ps, rfl, rfl⟩
  · refine .inr ⟨edit :: above, left, line, right, below, text, fault, rfl, ?_, ?_⟩
    · simp [Except.map, linesBefore, Nat.add_assoc]
    · simp [Except.map, linesAfter, Nat.add_assoc]

/-- **Two layouts side by side**: below the same pending title they are read alike. -/
theorem readLines_edits {edits : List LineEdit} (harmless : ∀ edit ∈ edits, edit.Harmless)
    (number number' : Nat) (pending : Option (List Char)) :
    ReadAlike number number' edits (readLines number pending (linesBefore edits))
      (readLines number' pending (linesAfter edits)) := by
  induction edits generalizing number number' pending with
  | nil => exact .inl ⟨[], rfl, rfl⟩
  | cons edit rest ih =>
    have later := ih fun e mem => harmless e (List.mem_cons_of_mem edit mem)
    have here := harmless edit (by simp)
    cases edit with
    | pad front line back =>
      have same : normalize (front ++ line ++ back) = normalize line :=
        normalize_pad (fun b mem => (here b (by simp [mem])).1) (fun b mem => (here b (by simp [mem])).1)
          line
      show ReadAlike _ _ _ (readLines number pending (line :: linesBefore rest))
        (readLines number' pending ((front ++ line ++ back) :: linesAfter rest))
      -- the line does the same in both readings, so that both stop at it or neither does
      cases step : readLine pending (normalize line) with
      | error fault =>
        rw [readLines_cons_of_error step, readLines_cons_of_error (same ▸ step), same]
        exact .inr ⟨[], front, line, back, rest, _, fault, rfl, rfl, rfl⟩
      | ok state =>
        rw [readLines_cons_of_ok step, readLines_cons_of_ok (same ▸ step)]
        exact .cons (.pad front line back) state.2 (later (number + 1) (number' + 1) state.1)
    | insert line =>
      show ReadAlike _ _ _ (readLines number pending (linesBefore rest))
        (readLines number' pending (line :: linesAfter rest))
      have on_alike := ReadAlike.cons (.insert line) [] (later number (number' + 1) pending)
      rw [map_nil_append, map_nil_append] at on_alike
      rwa [readLines_cons_of_isIgnorable here.1]
    | delete line =>
      show ReadAlike _ _ _ (readLines number pending (line :: linesBefore rest))
        (readLines number' pending (linesAfter rest))
      have on_alike := ReadAlike.cons (.delete line) [] (later (number + 1) number' pending)
      rw [map_nil_append, map_nil_append] at on_alike
      rwa [readLines_cons_of_isIgnorable here]

/-- Lines that are the same when they are normalized are read the same. -/
theorem readLines_congr {lines lines' : List (List Char)}
    (same : lines'.map normalize = lines.map normalize) (number : Nat) (pending : Option (List Char)) :
    readLines number pending lines' = readLines number pending lines := by
  induction lines generalizing lines' number pending with
  | nil => rw [List.map_eq_nil_iff.mp same]
  | cons raw rest ih =>
    obtain ⟨raw', rest', rfl, here, later⟩ := List.map_eq_cons_iff.mp same
    cases step : readLine pending (normalize raw) with
    | error fault =>
      rw [readLines_cons_of_error step, readLines_cons_of_error (here.symm ▸ step), here]
    | ok state => rw [readLines_cons_of_ok step, readLines_cons_of_ok (here.symm ▸ step), ih later]

/-! ### Sources of another layout -/

/-- The source that edits make: their lines with line feeds between them. -/
def laidOut (edits : List LineEdit) : String :=
  String.ofList (['\n'].intercalate (linesAfter edits))

/-- A source is read as its lines are.  Where there is none, the source is empty, which is one blank
line. -/
theorem readSource_intercalate {lines : List (List Char)} (clean : ∀ line ∈ lines, '\n' ∉ line) :
    readSource (String.ofList (['\n'].intercalate lines)) = readLines 1 none lines := by
  rw [readSource, String.toList_ofList]
  by_cases empty : lines = []
  · subst empty
    decide
  · rw [Text.splitOn_intercalate empty clean]

theorem not_mem_linesAfter {source : String} {edits : List LineEdit}
    (lines : linesBefore edits = Text.splitOn '\n' source.toList)
    (harmless : ∀ edit ∈ edits, edit.Harmless) : ∀ line ∈ linesAfter edits, '\n' ∉ line := by
  intro line mem
  obtain ⟨edit, edit_mem, mem⟩ := List.mem_flatMap.mp mem
  have here := harmless edit edit_mem
  cases edit with
  | pad front kept back =>
    obtain rfl := List.mem_singleton.mp mem
    have kept_mem : kept ∈ linesBefore edits :=
      List.mem_flatMap.mpr ⟨_, edit_mem, List.mem_singleton_self kept⟩
    have one_line : '\n' ∉ kept := Text.not_mem_of_mem_splitOn (lines ▸ kept_mem)
    have no_feed (b : Char) (within : b ∈ front ++ back) : b ≠ '\n' := (here b within).2
    intro feed
    simp only [List.mem_append, one_line, or_false] at feed
    exact no_feed '\n' (List.mem_append.mpr feed) rfl
  | insert new => exact List.mem_singleton.mp mem ▸ here.2
  | delete gone => cases mem

/-- A source with a carriage return in front of each line feed. -/
def withReturns (source : String) : String :=
  String.ofList (source.toList.flatMap fun c => if c = '\n' then ['\r', '\n'] else [c])

/-- Carriage returns are at the ends of lines. -/
theorem forall₂_splitOn_withReturns (cs : List Char) :
    List.Forall₂ (fun line' line => line' = line ∨ line' = line ++ ['\r'])
      (Text.splitOn '\n' (cs.flatMap fun c => if c = '\n' then ['\r', '\n'] else [c]))
      (Text.splitOn '\n' cs) := by
  induction cs with
  | nil => exact .cons (.inl rfl) .nil
  | cons c cs ih =>
    by_cases feed : c = '\n'
    · subst feed
      simpa [Text.splitOn] using ih
    · rw [List.flatMap_cons, if_neg feed, List.singleton_append, Text.splitOn, Text.splitOn,
        if_neg (by simpa using feed), if_neg (by simpa using feed)]
      revert ih
      generalize Text.splitOn '\n' (cs.flatMap _) = lines'
      generalize Text.splitOn '\n' cs = lines
      rintro (_ | ⟨first, later⟩)
      · exact .cons (.inl rfl) .nil
      · exact .cons (first.imp (congrArg (c :: ·)) (congrArg (c :: ·))) later

theorem map_normalize_of_returns {lines' lines : List (List Char)}
    (returns : List.Forall₂ (fun line' line => line' = line ∨ line' = line ++ ['\r']) lines' lines) :
    lines'.map normalize = lines.map normalize := by
  induction returns with
  | nil => rfl
  | cons first _ ih =>
    rw [List.map_cons, List.map_cons, ih]
    rcases first with rfl | rfl
    · rfl
    · have blank : ∀ b ∈ ['\r'], Text.isBlank b = true := List.all_eq_true.mp (by decide)
      exact congrArg (· :: _) (@normalize_pad [] ['\r'] (by simp) blank _)

/-- **The layout makes no difference**: blanks around lines change nothing, and neither do carriage
returns in front of line feeds.  Where lines that carry nothing are inserted or go, the properties stay
the same, and a source that is refused is refused for the same line with the same fault; its number
differs by the lines above it that are inserted and those that go. -/
theorem readSource_laidOut (source : String) :
    (∀ edits : List LineEdit, linesBefore edits = Text.splitOn '\n' source.toList →
      (∀ edit ∈ edits, edit.Harmless) →
      ((∀ edit ∈ edits, edit.isInsert = false ∧ edit.isDelete = false) →
        readSource (laidOut edits) = readSource source) ∧
      (∀ ps, readSource (laidOut edits) = .ok ps ↔ readSource source = .ok ps) ∧
      ∀ m, readSource source = .error m → ∃ m' above front line back below,
        readSource (laidOut edits) = .error m' ∧ m'.text = m.text ∧ m'.fault = m.fault ∧
        edits = above ++ .pad front line back :: below ∧ m.line = (linesBefore above).length + 1 ∧
        m'.line + above.countP isDelete = m.line + above.countP isInsert) ∧
    readSource (withReturns source) = readSource source ∧
    ∀ raw : List Char, Text.trim raw = [] ∨ Text.trim raw = ['\x7b'] ∨ Text.trim raw = ['\x7d'] ∨
      (∃ word ∈ ignoredWords, word <:+: raw) → IsIgnorable raw := by
  refine ⟨fun edits lines harmless => ?_, ?_, fun raw => isIgnorable_of_written⟩
  · have alike := readLines_edits harmless 1 1 none
    rw [lines, ← readSource, ← readSource_intercalate (not_mem_linesAfter lines harmless)] at alike
    rw [laidOut]
    rcases alike with ⟨ps, accepted, accepted'⟩ |
      ⟨above, front, line, back, below, text, fault, eq, refused, refused'⟩
    · rw [accepted, accepted']
      exact ⟨fun _ => rfl, fun _ => Iff.rfl, fun m refused => by cases refused⟩
    · rw [refused, refused']
      have lengths := length_linesAfter above
      refine ⟨fun pads => ?_, fun ps => by simp, ?_⟩
      · have none_there : above.countP isInsert = 0 ∧ above.countP isDelete = 0 := by
          simp only [List.countP_eq_zero, Bool.not_eq_true]
          exact ⟨fun e mem => (pads e (by simp [eq, mem])).1, fun e mem => (pads e (by simp [eq, mem])).2⟩
        have same : (linesAfter above).length = (linesBefore above).length := by omega
        rw [same]
      · rintro m ⟨⟩
        exact ⟨_, above, front, line, back, below, rfl, rfl, rfl, eq, Nat.add_comm 1 _,
          by simp only; omega⟩
  · rw [readSource, withReturns, String.toList_ofList]
    exact readLines_congr (map_normalize_of_returns (forall₂_splitOn_withReturns source.toList)) 1 none

/-- A line goes, two are inserted, and blanks are put around a line whose second accessor is put together
by taking out the first. -/
theorem readSource_laidOut_nested :
    let marker := "[Column(\"A\")]".toList
    let nested := "public int Id \x7bget;\x7b get; set; \x7d set;\x7d".toList
    let source := "using System;\n[Column(\"A\")]\npublic int Id \x7bget;\x7b get; set; \x7d set;\x7d\n\x7d\nprivate"
    let padded : List LineEdit := [.pad ['\t'] marker ['\r'], .pad [' '] nested ['\r']]
    let edits : List LineEdit := .delete "using System;".toList :: .insert "\t\x7b".toList ::
      .insert "// namespace N".toList :: padded ++ [.pad [] ['\x7d'] [' '], .pad ['\t'] "private".toList []]
    readSource source = .error ⟨5, "private", .unrecognized⟩ ∧
    (∃ m' above front line back below, readSource (laidOut edits) = .error m' ∧ m'.text = "private" ∧
      m'.fault = .unrecognized ∧ edits = above ++ .pad front line back :: below ∧
      5 = (linesBefore above).length + 1 ∧
      m'.line + above.countP isDelete = 5 + above.countP isInsert) ∧
    readSource (laidOut padded) = .ok [⟨"id", .number, "A"⟩] ∧ IsIgnorable "// namespace N\r".toList := by
  intro marker nested source padded edits
  have refused : readSource source = .error ⟨5, "private", .unrecognized⟩ := by decide +kernel
  have lines : linesBefore edits = Text.splitOn '\n' source.toList := by decide +kernel
  have lines_padded : linesBefore padded = Text.splitOn '\n'
      "[Column(\"A\")]\npublic int Id \x7bget;\x7b get; set; \x7d set;\x7d".toList := by decide +kernel
  obtain ⟨laid, -, written⟩ := readSource_laidOut source
  obtain ⟨-, -, moved⟩ := laid edits lines (by decide +kernel)
  obtain ⟨unchanged, -, -⟩ := (readSource_laidOut _).1 padded lines_padded (by decide +kernel)
  exact ⟨refused, moved _ refused, (unchanged (by decide +kernel)).trans (by decide +kernel),
    written _ (.inr (.inr (.inr ⟨"namespace".toList, by decide, by decide +kernel⟩)))⟩

end ModelGrid.Model
