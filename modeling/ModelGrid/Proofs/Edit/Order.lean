import ModelGrid.Proofs.Edit.Layout
import ModelGrid.Proofs.Syntax.Range
import ModelGrid.Edit.Anchor

/-!
# Insertions at edges

Edges of a well-formed tree of a text cut the text between characters, so insertions there are
accepted.  Where no two of them share an offset, their order makes no difference.

## Main definitions

* `Cuts`: an offset between the characters of a file, outside of its tokens and comments.

## Main results

* `cuts_of_isEdge`: edges cut a file.
* `Anchor.isEdge_of_offset?`: anchors are edges.
* `Session.insertAll_of_isBoundary`: insertions between characters are accepted.
* `Session.edited?_eq_of_perm`: insertions at different offsets may be made in any order.
-/

namespace ModelGrid

namespace Edit

open Syntax Syntax.Node Syntax.Place

variable {file : Document} {offset : Nat}

/-- The offset is between the characters of a file, and outside of its tokens and comments. -/
structure Cuts (file : Document) (offset : Nat) : Prop where
  le : offset ≤ Text.size file.text
  boundary : Text.IsBoundary file.text offset
  outside : ∀ token : Node, token.IsIn file.root → token.children = [] →
    ¬ (token.start < offset ∧ offset < token.stop)

theorem le_size_of_isBoundary {text : List Char} (h : Text.IsBoundary text offset) :
    offset ≤ Text.size text := by
  obtain ⟨⟨before, after⟩, cut⟩ := Option.isSome_iff_exists.mp h
  obtain ⟨rfl, rfl⟩ := Text.splitAt?_eq_some_iff.mp cut
  simp

/-- **Edges cut a file.** -/
theorem cuts_of_isEdge (wellFormed : WellFormed file.text file.root)
    (edge : IsEdge file.root offset) : Cuts file offset := by
  have boundary := edge.isBoundary wellFormed
  exact ⟨le_size_of_isBoundary boundary, boundary, fun token there is_leaf =>
    edge.not_inside wellFormed.ordered there is_leaf⟩

/-- **Anchors are edges.** -/
theorem Anchor.isEdge_of_offset? {anchor : Anchor} (ordered : Ordered file.root)
    (found : anchor.offset? file = some offset) : IsEdge file.root offset := by
  cases anchor with
  | beforeReturn =>
    obtain ⟨place, place_found, rfl⟩ := Option.map_eq_some_iff.mp found
    exact isEdge_leadingStart (isIn_of_mem_places (List.mem_of_find?_eq_some place_found)) ordered
  | arrowBodyStart =>
    rw [offset?, arrowBodyStart?] at found
    split at found
    next => cases found
    next arrow arrow_found =>
      split at found
      next => cases found
      next body body_found =>
        split at found
        next =>
          split at found
          next brace rest children_eq =>
            split at found
            next =>
              cases found
              have arrow_in := isIn_of_mem_places (List.mem_of_find?_eq_some arrow_found)
              have body_in := arrow_in.node.child (List.mem_of_find?_eq_some body_found)
              exact .stop (body_in.child (by rw [children_eq]; exact List.mem_cons_self))
            next => cases found
          next => cases found
        next => cases found

namespace Session

open Insertion

/-- Insertions between characters are accepted. -/
theorem insertAll_of_isBoundary {s : Session} {calls : List Insertion}
    (boundary : ∀ i ∈ calls, Text.IsBoundary s.snapshot.toList i.offset) :
    ∃ last, s.insertAll calls = .ok last := by
  induction calls generalizing s with
  | nil => exact ⟨s, rfl⟩
  | cons i rest ih =>
    have accepted : ∃ longer, s.insert i.offset i.text i.side = .ok longer := by
      rw [insert, dif_pos (boundary i List.mem_cons_self)]
      exact ⟨_, rfl⟩
    obtain ⟨longer, accepted⟩ := accepted
    have same := (insert_eq_ok accepted).1
    obtain ⟨last, later⟩ := ih fun j mem => same ▸ boundary j (List.mem_cons_of_mem i mem)
    exact ⟨last, by rw [insertAll, accepted]; exact later⟩

/-- Where a text is given by its characters, so is the edited one, and what is read of it. -/
theorem map_apply_of_layout {α : Type*} {path : String} {chars edited : List Char}
    {calls : List Insertion} {a : α} (read : String → α)
    (boundary : calls.all (fun i => Text.IsBoundary chars i.offset) = true)
    (laid : layoutFrom calls 0 chars = edited) (is : read (String.ofList edited) = a) :
    ((start path (String.ofList chars)).insertAll calls).toOption.map
      (fun s => (s.apply, read s.apply)) = some (String.ofList edited, a) := by
  obtain ⟨s, accepted⟩ := insertAll_of_isBoundary (s := start path (String.ofList chars))
    fun i mem => by
      rw [start, String.toList_ofList]
      exact of_decide_eq_true (List.all_eq_true.mp boundary i mem)
  have text : s.apply = String.ofList edited := by
    rw [← laid, ← String.toList_inj, toList_apply_of_insertAll accepted, String.toList_ofList,
      String.toList_ofList]
  rw [accepted, ← is, ← text]
  rfl

/-- Of insertions at different offsets, at most one is at a given place. -/
theorem length_filter_isAt_le {calls : List Insertion}
    (distinct : calls.Pairwise fun a b => a.offset ≠ b.offset) (offset : Nat) (side : Side) :
    (calls.filter (isAt offset side)).length ≤ 1 := by
  have distinct' := distinct.filter (isAt offset side)
  match kept : calls.filter (isAt offset side) with
  | [] => simp
  | [_] => simp
  | a :: b :: rest =>
    have at_offset (i : Insertion) (mem : i ∈ calls.filter (isAt offset side)) : i.offset = offset := by
      have here := (List.mem_filter.mp mem).2
      simp only [isAt, Bool.and_eq_true, beq_iff_eq] at here
      exact here.1
    rw [kept] at distinct' at_offset
    have apart := (List.pairwise_cons.mp distinct').1 b List.mem_cons_self
    exact absurd ((at_offset a (by simp)).trans (at_offset b (by simp)).symm) apart

/-- **Insertions at different offsets may be made in any order.** -/
theorem edited?_eq_of_perm {path snapshot : String} {calls calls' : List Insertion} {s s' : Session}
    (distinct : calls.Pairwise fun a b => a.offset ≠ b.offset) (perm : calls'.Perm calls)
    (accepted : (start path snapshot).insertAll calls = .ok s)
    (accepted' : (start path snapshot).insertAll calls' = .ok s') : s'.edited? = s.edited? := by
  obtain ⟨same, made⟩ := insertAll_eq_ok accepted
  obtain ⟨same', made'⟩ := insertAll_eq_ok accepted'
  have agree (position : Nat) (side : Side) :
      s'.insertions.filter (isAt position side) = s.insertions.filter (isAt position side) := by
    have perm' : (s'.insertions.filter (isAt position side)).Perm
        (s.insertions.filter (isAt position side)) := by
      rw [made, made']
      exact perm.filter _
    have few := length_filter_isAt_le distinct position side
    have made_eq : s.insertions = calls := made
    rw [← made_eq] at few
    cases kept : s.insertions.filter (isAt position side) with
    | nil => rw [kept] at perm'; exact perm'.eq_nil
    | cons i rest =>
      rw [kept] at perm' few
      obtain rfl : rest = [] := List.eq_nil_of_length_eq_zero (by simpa using few)
      exact List.perm_singleton.mp perm'
  rw [edited?_eq_layout, edited?_eq_layout, layout, layout, same, same',
    layoutFrom_congr fun p _ => textsAt_congr fun side => agree p side]

end Session

end Edit

end ModelGrid
