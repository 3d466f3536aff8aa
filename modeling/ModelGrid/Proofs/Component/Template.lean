import ModelGrid.Component.Template
import ModelGrid.Proofs.Text.Parts
import Mathlib.Data.List.Basic

/-!
# Rendering fills the markers

`Values.render` replaces one marker after another over the whole text, so that a value put for one
of them could, together with what stands around it, look like another.  Where nothing between the
markers opens one, that does not happen: the text is the pieces with all values put at once.

The induction is over the pieces, once for each marker.  What carries it is that a stretch without
two opening braces in a row, and without one at its end, is passed over unchanged
(`replaceFrom_append_of_opensNone`), whatever follows it.

## Main definitions

* `OpensNone`: a stretch of text in which no marker begins.
* `Piece.fillSome`: the pieces with the values of some markers put.

## Main results

* `render_template`: rendering puts all values at once.
-/

namespace ModelGrid.Component

open Text

/-! ### Stretches without markers -/

/-- No marker begins in the text, whatever follows it. -/
def OpensNone (cs : List Char) : Prop :=
  ¬ ['\x7b', '\x7b'] <:+: cs ∧ cs.getLast? ≠ some '\x7b'

instance (cs : List Char) : Decidable (OpensNone cs) :=
  inferInstanceAs (Decidable (¬ ['\x7b', '\x7b'] <:+: cs ∧ cs.getLast? ≠ some '\x7b'))

theorem opensNone_of_not_mem {cs : List Char} (h : '\x7b' ∉ cs) : OpensNone cs := by
  refine ⟨fun opening => h (opening.subset (by simp)), fun last => h ?_⟩
  exact List.mem_of_getLast? last

theorem OpensNone.tail {c : Char} {cs : List Char} (h : OpensNone (c :: cs)) : OpensNone cs := by
  refine ⟨fun opening => h.1 (opening.trans (List.suffix_cons c cs).isInfix), fun last => h.2 ?_⟩
  cases cs with
  | nil => cases last
  | cons d ds => simpa using last

theorem OpensNone.not_startsWith {c : Char} {cs rest part : List Char} (h : OpensNone (c :: cs)) :
    startsWith ('\x7b' :: '\x7b' :: part) (c :: cs ++ rest) = false := by
  rw [← Bool.not_eq_true, startsWith_iff]
  intro opening
  cases cs with
  | nil =>
    have brace := (List.cons_prefix_cons.mp opening).1
    exact h.2 (by simp [← brace])
  | cons d ds =>
    obtain ⟨first, opening⟩ := List.cons_prefix_cons.mp opening
    obtain ⟨second, -⟩ := List.cons_prefix_cons.mp opening
    exact h.1 ⟨[], ds, by simp [← first, ← second]⟩

variable {tail value : List Char}

theorem replaceFrom_append_of_opensNone {cs rest : List Char} (h : OpensNone cs) :
    replaceFrom ('\x7b' :: '\x7b' :: tail) value 0 (cs ++ rest) =
      cs ++ replaceFrom ('\x7b' :: '\x7b' :: tail) value 0 rest := by
  induction cs with
  | nil => rfl
  | cons c cs ih =>
    rw [List.cons_append, replaceFrom, ← List.cons_append, h.not_startsWith]
    exact congrArg (c :: ·) (ih h.tail)

theorem not_startsWith_of_not_isInfix {cs : List Char} (closed : ¬ ['\x7b', '\x7b'] <:+: cs) :
    startsWith ('\x7b' :: '\x7b' :: tail) cs = false := by
  rw [← Bool.not_eq_true, startsWith_iff]
  exact fun front => closed ((List.prefix_append ['\x7b', '\x7b'] tail).isInfix.trans front.isInfix)

/-- A text without two opening braces in a row has no marker. -/
theorem replaceFrom_eq_self {cs : List Char} (closed : ¬ ['\x7b', '\x7b'] <:+: cs) :
    replaceFrom ('\x7b' :: '\x7b' :: tail) value 0 cs = cs := by
  induction cs with
  | nil => rfl
  | cons c cs ih =>
    rw [replaceFrom, not_startsWith_of_not_isInfix closed]
    exact congrArg (c :: ·) (ih fun pair => closed (pair.trans (List.suffix_cons c cs).isInfix))

theorem replaceFrom_skip {part cs rest : List Char} :
    replaceFrom part value cs.length (cs ++ rest) = replaceFrom part value 0 rest := by
  induction cs with
  | nil => rfl
  | cons c cs ih => exact ih

/-- A part at the front is replaced as a whole. -/
theorem replaceFrom_part_append {c : Char} {part rest : List Char} :
    replaceFrom (c :: part) value 0 (c :: part ++ rest) =
      value ++ replaceFrom (c :: part) value 0 rest := by
  have front : startsWith (c :: part) (c :: part ++ rest) = true :=
    startsWith_iff.mpr (List.prefix_append _ _)
  rw [List.cons_append, replaceFrom, ← List.cons_append, front]
  exact congrArg (value ++ ·) replaceFrom_skip

/-! ### One marker after another -/

namespace Marker

/-- The characters of a marker behind its opening braces. -/
def afterBraces (m : Marker) : List Char := m.spelling.toList.drop 2

theorem toList_spelling (m : Marker) :
    m.spelling.toList = '\x7b' :: '\x7b' :: m.afterBraces := by
  cases m <;> decide +kernel

theorem opensNone_afterBrace (m : Marker) : OpensNone ('\x7b' :: m.afterBraces) := by
  cases m <;> decide +kernel

theorem not_prefix_of_ne {m other : Marker} (ne : m ≠ other) :
    ¬ m.spelling.toList <+: other.spelling.toList := by
  cases m <;> cases other <;> first | exact absurd rfl ne | decide +kernel

/-- No marker begins like another. -/
theorem not_startsWith_spelling {m other : Marker} (ne : m ≠ other) (rest : List Char) :
    startsWith m.spelling.toList (other.spelling.toList ++ rest) = false := by
  rw [← Bool.not_eq_true, startsWith_iff]
  intro front
  rcases List.prefix_or_prefix_of_prefix front (List.prefix_append _ rest) with h | h
  · exact not_prefix_of_ne ne h
  · exact not_prefix_of_ne ne.symm h

end Marker

/-- Another marker is passed over. -/
theorem replaceFrom_other_append {m other : Marker} (ne : m ≠ other) {rest : List Char} :
    replaceFrom m.spelling.toList value 0 (other.spelling.toList ++ rest) =
      other.spelling.toList ++ replaceFrom m.spelling.toList value 0 rest := by
  have front := Marker.not_startsWith_spelling ne rest
  rw [other.toList_spelling, List.cons_append] at front ⊢
  rw [replaceFrom, front]
  have passed := other.opensNone_afterBrace
  rw [m.toList_spelling]
  exact congrArg ('\x7b' :: ·) (replaceFrom_append_of_opensNone passed)

namespace Piece

/-- The piece with its value put if it is one of the markers. -/
def fillSome (p : Values) (markers : List Marker) : Piece → List Char
  | .literal text => text.toList
  | .marker m => if m ∈ markers then (p.value m).toList else m.spelling.toList

/-- No marker begins in the piece unless it is one. -/
def Plain : Piece → Prop
  | .literal text => OpensNone text.toList
  | .marker _ => True

instance : DecidablePred Plain
  | .literal text => inferInstanceAs (Decidable (OpensNone text.toList))
  | .marker _ => isTrue trivial

end Piece

variable {p : Values} {pieces : List Piece}

theorem toList_join (texts : List String) :
    (String.join texts).toList = texts.flatMap String.toList := by
  simp

theorem replaceAll_fillSome (plain : ∀ piece ∈ pieces, piece.Plain)
    (values : ∀ m, OpensNone (p.value m).toList) {back : List Char}
    (closed : ¬ ['\x7b', '\x7b'] <:+: back) (done : List Marker) (m : Marker) :
    replaceAll m.spelling.toList (p.value m).toList (pieces.flatMap (Piece.fillSome p done) ++ back) =
      pieces.flatMap (Piece.fillSome p (m :: done)) ++ back := by
  rw [replaceAll]
  induction pieces with
  | nil =>
    rw [m.toList_spelling]
    exact replaceFrom_eq_self closed
  | cons piece rest ih =>
    have ih := ih fun piece mem => plain piece (by simp [mem])
    simp only [List.flatMap_cons, List.append_assoc]
    cases piece with
    | literal text =>
      have passed := plain (.literal text) (by simp)
      rw [m.toList_spelling] at ih ⊢
      exact (replaceFrom_append_of_opensNone passed).trans (congrArg (text.toList ++ ·) ih)
    | marker other =>
      by_cases same : m = other
      · subst same
        by_cases before : m ∈ done
        · have passed := values m
          simp only [Piece.fillSome, before, List.mem_cons, true_or, if_true]
          rw [m.toList_spelling] at ih ⊢
          exact (replaceFrom_append_of_opensNone passed).trans (congrArg _ ih)
        · simp only [Piece.fillSome, before, List.mem_cons, true_or, if_true, if_false]
          rw [m.toList_spelling] at ih ⊢
          exact replaceFrom_part_append.trans (congrArg _ ih)
      · have unchanged : Piece.fillSome p (m :: done) (.marker other) =
            Piece.fillSome p done (.marker other) := by
          simp [Piece.fillSome, Ne.symm same]
        rw [unchanged, ← ih, Piece.fillSome]
        split
        · rw [m.toList_spelling]
          exact replaceFrom_append_of_opensNone (values other)
        · exact replaceFrom_other_append same

theorem renderIn_fillSome (plain : ∀ piece ∈ pieces, piece.Plain)
    (values : ∀ m, OpensNone (p.value m).toList) {back : List Char}
    (closed : ¬ ['\x7b', '\x7b'] <:+: back) (markers done : List Marker) :
    p.renderIn markers (pieces.flatMap (Piece.fillSome p done) ++ back) =
      pieces.flatMap (Piece.fillSome p (markers.reverse ++ done)) ++ back := by
  induction markers generalizing done with
  | nil => rfl
  | cons m rest ih =>
    rw [Values.renderIn, List.foldl_cons, replaceAll_fillSome plain values closed,
      ← Values.renderIn, ih]
    simp

/-- A template is its pieces with no value put. -/
theorem toList_template (pieces : List Piece) :
    (Piece.template pieces).toList = pieces.flatMap (Piece.fillSome p []) := by
  rw [Piece.template, toList_join, List.flatMap_map]
  congr 1
  funext piece
  cases piece <;> rfl

/-- The pieces with the values of all markers put. -/
theorem toList_filled {markers : List Marker} (all : ∀ m, m ∈ markers) (pieces : List Piece) :
    (Piece.filled p pieces).toList = pieces.flatMap (Piece.fillSome p markers) := by
  rw [Piece.filled, toList_join, List.flatMap_map]
  congr 1
  funext piece
  cases piece with
  | literal text => rfl
  | marker m => exact (if_pos (all m)).symm

/-- **Rendering puts all values at once.** -/
theorem render_template (plain : ∀ piece ∈ pieces, piece.Plain)
    (values : ∀ m, OpensNone (p.value m).toList) :
    p.render (Piece.template pieces) = Piece.filled p pieces := by
  have closed : ¬ ['\x7b', '\x7b'] <:+: ([] : List Char) := by simp
  have rendered := renderIn_fillSome plain values closed Marker.all []
  rw [List.append_nil, List.append_nil, List.append_nil] at rendered
  rw [Values.render, toList_template (p := p), rendered,
    ← toList_filled (fun m => by cases m <;> decide), String.ofList_toList]

end ModelGrid.Component
