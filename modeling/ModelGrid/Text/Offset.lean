/-!
# Byte offsets in a text

Every position that crosses this library's interface counts the bytes of the text's UTF-8 form.
This module measures a text in that unit and cuts it at an offset.

## Main definitions

* `Text.size`: the number of bytes of a list of characters.
* `Text.splitAt?`: the two sides of an offset, `none` where the offset is past the end or inside
  the encoding of a character.
* `Text.slice`: the characters between two offsets.

## Main results

* `Text.splitAt?_eq_some_iff`: an offset cuts a text exactly into two parts that make up the text,
  the first of which has that many bytes.
-/

namespace ModelGrid.Text

/-- The number of bytes of the UTF-8 form of the characters. -/
def size : List Char → Nat
  | [] => 0
  | c :: cs => c.utf8Size + size cs

/-- The characters before and after a byte offset.  There is no cut past the end of the text and
none inside the encoding of a character. -/
def splitAt? : Nat → List Char → Option (List Char × List Char)
  | 0, cs => some ([], cs)
  | _ + 1, [] => none
  | n + 1, c :: cs =>
    if c.utf8Size ≤ n + 1 then
      (splitAt? (n + 1 - c.utf8Size) cs).map fun (before, after) => (c :: before, after)
    else
      none

/-- An offset at which the text may be cut. -/
def IsBoundary (cs : List Char) (offset : Nat) : Prop :=
  (splitAt? offset cs).isSome

instance (cs : List Char) (offset : Nat) : Decidable (IsBoundary cs offset) :=
  inferInstanceAs (Decidable ((splitAt? offset cs).isSome = true))

/-- The characters from offset `start` up to offset `stop`; empty where these do not delimit a
part of the text. -/
def slice (cs : List Char) (start stop : Nat) : List Char :=
  match splitAt? start cs with
  | none => []
  | some (_, rest) => ((splitAt? (stop - start) rest).map Prod.fst).getD []

@[simp] theorem size_nil : size [] = 0 := rfl

@[simp] theorem size_cons (c : Char) (cs : List Char) :
    size (c :: cs) = c.utf8Size + size cs := rfl

@[simp] theorem size_append (xs ys : List Char) : size (xs ++ ys) = size xs + size ys := by
  induction xs with
  | nil => simp
  | cons c cs ih => simp [ih]; omega

theorem splitAt?_size_append (xs ys : List Char) :
    splitAt? (size xs) (xs ++ ys) = some (xs, ys) := by
  induction xs with
  | nil => simp [splitAt?]
  | cons c cs ih =>
    have hc := c.utf8Size_pos
    obtain ⟨n, hn⟩ : ∃ n, size (c :: cs) = n + 1 := ⟨size (c :: cs) - 1, by simp; omega⟩
    have hn' : n + 1 - c.utf8Size = size cs := by rw [← hn]; simp
    rw [hn, List.cons_append, splitAt?, if_pos (by simp at hn; omega), hn', ih]
    rfl

theorem eq_append_of_splitAt? {offset : Nat} {cs xs ys : List Char}
    (h : splitAt? offset cs = some (xs, ys)) : cs = xs ++ ys ∧ size xs = offset := by
  induction cs generalizing offset xs with
  | nil =>
    cases offset with
    | zero =>
      obtain ⟨rfl, rfl⟩ : xs = [] ∧ ys = [] := by simpa [splitAt?] using h
      simp
    | succ n => simp [splitAt?] at h
  | cons c cs ih =>
    cases offset with
    | zero =>
      obtain ⟨rfl, rfl⟩ : xs = [] ∧ c :: cs = ys := by simpa [splitAt?] using h
      simp
    | succ n =>
      rw [splitAt?] at h
      split at h
      · obtain ⟨⟨before, after⟩, hs, heq⟩ := Option.map_eq_some_iff.1 h
        obtain ⟨rfl, rfl⟩ : c :: before = xs ∧ after = ys := by simpa using heq
        obtain ⟨rfl, hsize⟩ := ih hs
        exact ⟨rfl, by simp [hsize]; omega⟩
      · simp at h

/-- **Cutting is undone by joining.**  The offset of a cut is the number of bytes before it. -/
theorem splitAt?_eq_some_iff {offset : Nat} {cs xs ys : List Char} :
    splitAt? offset cs = some (xs, ys) ↔ cs = xs ++ ys ∧ size xs = offset := by
  refine ⟨eq_append_of_splitAt?, ?_⟩
  rintro ⟨rfl, rfl⟩
  exact splitAt?_size_append xs ys

end ModelGrid.Text
