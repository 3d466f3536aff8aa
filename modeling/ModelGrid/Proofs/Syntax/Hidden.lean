import ModelGrid.Proofs.Syntax.Edge
import Mathlib.Data.List.Infix

/-!
# Hidden words

The letters `import` may stand in a text without the word being there, in front of another letter.
Texts that are inserted at an edge of the tree do not bring such letters to light: no edge is between
the letters and the one behind them.

## Main definitions

* `Lexeme.HidesImport`: behind the letters `import` there is another one, wherever they stand.

## Main results

* `Document.parts_of_isEdge`: the edges of a tree cut no word.
* `Lexeme.HidesImport.lacksImport_insert`: a text with another one inserted into it.
-/

namespace ModelGrid.Syntax

open Lexeme

/-- **The edges of the tree of a text** cut no word. -/
theorem Document.parts_of_isEdge {text : String} {offset : Nat}
    (edge : Node.IsEdge (parse text).root offset) : Parts 0 text.toList offset := by
  obtain ⟨tokens, comments⟩ := Token.isOf_scan text.toList
  refine edge_of_scan ⟨[], _, rfl, rfl, nofun⟩ ⟨_, [], (List.append_nil _).symm, Nat.zero_add _, ?_⟩
    (fun t mem => ⟨(tokens t mem).start, (tokens t mem).stop⟩)
    (fun c mem => ⟨(comments c mem).start, (comments c mem).stop⟩) edge
  exact not_cuts_of_head? nofun

namespace Lexeme

/-- In the text, another letter stands behind the letters `import`, wherever they stand. -/
def HidesImport (text : List Char) : Prop :=
  ∀ later ∈ text.tails, "import".toList <+: later → (later.drop 6).head?.any Char.isAlpha = true

instance (text : List Char) : Decidable (HidesImport text) :=
  inferInstanceAs (Decidable (∀ later ∈ text.tails, "import".toList <+: later →
    (later.drop 6).head?.any Char.isAlpha = true))

variable {text u d v a b : List Char}

theorem HidesImport.letter (hides : HidesImport text) {front back : List Char}
    (eq : text = front ++ "import".toList ++ back) :
    ∃ c, back.head? = some c ∧ c.isAlpha = true := by
  have later : "import".toList ++ back ∈ text.tails := by
    rw [eq, List.append_assoc]
    exact (List.mem_tails _ _).mpr (List.suffix_append front _)
  have follows : back.head?.any Char.isAlpha = true := hides _ later (List.prefix_append _ _)
  cases first : back.head? with
  | none => simp [first] at follows
  | some c => exact ⟨c, rfl, by simpa [first] using follows⟩

theorem HidesImport.lacksImport (hides : HidesImport text) : LacksImport text := by
  intro front back eq
  obtain ⟨c, first, letter⟩ := hides.letter eq
  exact ⟨c, first, letter_of_isAlpha letter⟩

/-- A text without an `m` hides nothing. -/
theorem hidesImport_of_not_mem (other : 'm' ∉ text) : HidesImport text := by
  intro later mem is_prefix
  have m : 'm' ∈ later := is_prefix.subset (by decide)
  exact absurd (((List.mem_tails _ _).mp mem).subset m) other

/-- Of two texts, the letters `import` are in the one or in the other, or the one ends between two of
them. -/
theorem import_append {front back : List Char} (eq : a ++ b = front ++ "import".toList ++ back) :
    (∃ more, a = front ++ "import".toList ++ more ∧ back = more ++ b) ∨
    (∃ less, b = less ++ "import".toList ++ back) ∨
    (∃ c ∈ "impor".toList, a.getLast? = some c) ∧ ∃ c ∈ "mport".toList, b.head? = some c := by
  rw [List.append_assoc] at eq
  rcases List.append_eq_append_iff.mp eq with ⟨less, -, b_eq⟩ | ⟨ends, a_eq, rest_eq⟩
  · exact .inr (.inl ⟨less, by rw [b_eq, List.append_assoc]⟩)
  rcases List.append_eq_append_iff.mp rest_eq with ⟨more, ends_eq, back_eq⟩ | ⟨begins, word, b_eq⟩
  · exact .inl ⟨more, by rw [a_eq, ends_eq, List.append_assoc], back_eq⟩
  rcases List.eq_nil_or_concat' ends with rfl | ⟨init, c, rfl⟩
  · exact .inr (.inl ⟨[], by rw [b_eq, ← List.nil_append begins, ← word, List.nil_append]⟩)
  cases begins with
  | nil =>
    rw [List.append_nil] at word
    exact .inl ⟨[], by rw [a_eq, ← word, List.append_nil], by rw [b_eq]; rfl⟩
  | cons d later =>
    refine .inr (.inr ⟨⟨c, ?_, by simp [a_eq]⟩, d, ?_, by rw [b_eq]; rfl⟩)
    · have letters := congrArg List.dropLast word
      rw [List.dropLast_append_of_ne_nil (List.cons_ne_nil d later)] at letters
      show c ∈ "import".toList.dropLast
      rw [letters]
      simp
    · have letters := congrArg List.tail word
      rw [List.tail_append_of_ne_nil (by simp)] at letters
      show d ∈ "import".toList.tail
      rw [letters]
      simp

/-- **A text with another one inserted into it**, where no word is cut and the other one does not go on
with the letters in front of it, nor begin those behind it. -/
theorem HidesImport.lacksImport_insert (hides : HidesImport (u ++ v)) (whole : ¬ Cuts u v)
    (lacks : LacksImport d) (first : ∃ c, d.head? = some c ∧ c ∉ "mport".toList)
    (last : ∃ c, d.getLast? = some c ∧ c ∉ "impor".toList) : LacksImport (u ++ d ++ v) := by
  obtain ⟨first, first_is, first_other⟩ := first
  obtain ⟨last, last_is, last_other⟩ := last
  have first_is' : (d ++ v).head? = some first := by rw [List.head?_append, first_is]; rfl
  intro front back eq
  rw [List.append_assoc] at eq
  rcases import_append eq with ⟨more, u_eq, back_eq⟩ | ⟨less, rest_eq⟩ | ⟨-, c, mem, is⟩
  · -- in front of the place
    have here : u ++ v = front ++ "import".toList ++ (more ++ v) := by simp [u_eq]
    obtain ⟨c, is, letter⟩ := hides.letter here
    cases more with
    | nil =>
      refine absurd ⟨?_, c, is, letter⟩ whole
      rw [u_eq, List.append_nil, List.getLast?_append]
      rfl
    | cons d' more =>
      cases is
      exact ⟨c, by rw [back_eq]; rfl, letter_of_isAlpha letter⟩
  · rcases import_append rest_eq with ⟨more, d_eq, back_eq⟩ | ⟨less', v_eq⟩ | ⟨⟨c, mem, is⟩, -⟩
    · -- in the other text
      obtain ⟨c, is, part⟩ := lacks less more d_eq
      exact ⟨c, by rw [back_eq, List.head?_append, is]; rfl, part⟩
    · -- behind it
      have here : u ++ v = u ++ less' ++ "import".toList ++ back := by simp [v_eq]
      obtain ⟨c, is, letter⟩ := hides.letter here
      exact ⟨c, is, letter_of_isAlpha letter⟩
    · rw [last_is] at is
      cases is
      exact absurd mem last_other
  · rw [first_is'] at is
    cases is
    exact absurd mem first_other

end Lexeme

end ModelGrid.Syntax
