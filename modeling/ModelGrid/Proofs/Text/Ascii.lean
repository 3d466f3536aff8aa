import ModelGrid.Text.Grapheme
import Mathlib.Data.Bool.AllAny
import Mathlib.Data.List.Chain

/-!
# Texts of ASCII

In a text of ASCII, case is a matter of single characters, and so are clusters, but for one: the two
characters of a line end stay together.  So a text can be cut into its clusters by looking at two
characters at a time (`lineClusters`), and clusters that are put together again are the clusters of
what they make up, unless a line end comes about where two of them meet (`graphemes_flatten`).

## Main definitions

* `Text.IsAscii`: being a character of ASCII.
* `Text.lineClusters`: a text with its line ends kept together.
* `Text.IsCluster`, `Text.Apart`: the clusters of ASCII, and two that do not make up one.

## Main results

* `Text.toUpper_of_isAscii`, `Text.toLower_of_isAscii`: case is a matter of single characters.
* `Text.graphemes_of_isAscii`: the clusters of a text.
* `Text.graphemes_flatten`: clusters put together are cut apart again.
-/

namespace ModelGrid.Text

/-- A character of ASCII. -/
def IsAscii (c : Char) : Prop := c.toNat < 0x80

instance : DecidablePred IsAscii := fun c => inferInstanceAs (Decidable (c.toNat < 0x80))

/-- What is true of the code points of ASCII is true of its characters. -/
@[elab_as_elim]
theorem IsAscii.of_forall {motive : Char → Prop} {c : Char} (h : IsAscii c)
    (all : ∀ n < 0x80, motive (Char.ofNat n)) : motive c := by
  simpa using all c.toNat h

/-! ### Letter case -/

theorem toUpper_of_isAscii {cs : List Char} (h : ∀ c ∈ cs, IsAscii c) :
    toUpper cs = cs.map Char.toUpper := by
  induction cs with
  | nil => rfl
  | cons c cs ih =>
    obtain ⟨ascii, rest⟩ := List.forall_mem_cons.mp h
    rw [toUpper, List.flatMap_cons, upperForm, if_pos (show c.toNat < 0x80 from ascii)]
    exact congrArg (c.toUpper :: ·) (ih rest)

theorem lowerFrom_of_isAscii {afterCased : Bool} {cs : List Char} (h : ∀ c ∈ cs, IsAscii c) :
    lowerFrom afterCased cs = cs.map Char.toLower := by
  induction cs generalizing afterCased with
  | nil => rfl
  | cons c cs ih =>
    obtain ⟨ascii, rest⟩ := List.forall_mem_cons.mp h
    have no_sigma : (c == 'Σ') = false := by
      rw [beq_eq_false_iff_ne]
      rintro rfl
      revert ascii
      decide
    rw [lowerFrom, no_sigma, lowerForm, if_pos (show c.toNat < 0x80 from ascii), ih rest]
    rfl

theorem toLower_of_isAscii {cs : List Char} (h : ∀ c ∈ cs, IsAscii c) :
    toLower cs = cs.map Char.toLower :=
  lowerFrom_of_isAscii h

/-! ### Clusters -/

/-- The two characters are those of a line end. -/
def IsLineEnd (c d : Char) : Prop := c = '\r' ∧ d = '\n'

instance (c d : Char) : Decidable (IsLineEnd c d) :=
  inferInstanceAs (Decidable (c = '\r' ∧ d = '\n'))

theorem graphemeClass_of_isAscii {c : Char} (h : IsAscii c) :
    graphemeClass c = if c = '\r' then .carriageReturn else if c = '\n' then .lineFeed
      else if 0x20 ≤ c.toNat ∧ c.toNat < 0x7F then .other else .control := by
  refine h.of_forall ?_
  decide

/-- Of ASCII, only the characters of a line end are joined. -/
theorem joins_of_isAscii {s : GraphemeState} {c d : Char} (last : s.last = graphemeClass c)
    (hc : IsAscii c) (hd : IsAscii d) :
    s.joins (graphemeClass d) = decide (IsLineEnd c d) := by
  obtain ⟨_, picture, oddIndicators⟩ := s
  subst last
  rw [graphemeClass_of_isAscii hc, graphemeClass_of_isAscii hd]
  split_ifs <;> simp_all [GraphemeState.joins, IsLineEnd]

/-- The text cut into its characters, the two of a line end kept together. -/
def lineClusters : List Char → List (List Char)
  | [] => []
  | [c] => [[c]]
  | c :: d :: cs =>
    if IsLineEnd c d then [c, d] :: lineClusters cs else [c] :: lineClusters (d :: cs)

theorem graphemesFrom_of_isAscii {s : GraphemeState} {c : Char} {cs : List Char}
    (last : s.last = graphemeClass c) (h : ∀ d ∈ c :: cs, IsAscii d) :
    graphemesFrom s [c] cs = lineClusters (c :: cs) := by
  obtain ⟨hc, hcs⟩ := List.forall_mem_cons.mp h
  match cs with
  | [] => rfl
  | d :: cs =>
    obtain ⟨hd, rest⟩ := List.forall_mem_cons.mp hcs
    rw [graphemesFrom, lineClusters]
    simp only [joins_of_isAscii last hc hd, decide_eq_true_eq]
    by_cases line_end : IsLineEnd c d
    · rw [if_pos line_end, if_pos line_end]
      match cs with
      | [] => rfl
      | e :: cs =>
        obtain ⟨he, -⟩ := List.forall_mem_cons.mp rest
        -- behind a line end, nothing is joined
        have joins : (s.next (graphemeClass d)).joins (graphemeClass e) = false := by
          rw [joins_of_isAscii rfl hd he, decide_eq_false]
          rintro ⟨rfl, -⟩
          exact absurd line_end.2 (by decide)
        rw [graphemesFrom]
        simp only [joins, Bool.false_eq_true, if_false]
        rw [graphemesFrom_of_isAscii rfl rest]
        rfl
    · rw [if_neg line_end, if_neg line_end, graphemesFrom_of_isAscii rfl hcs]
      rfl
termination_by cs.length

/-- **The clusters of a text of ASCII.** -/
theorem graphemes_of_isAscii {cs : List Char} (h : ∀ c ∈ cs, IsAscii c) :
    graphemes cs = lineClusters cs := by
  cases cs with
  | nil => rfl
  | cons c cs => exact graphemesFrom_of_isAscii rfl h

/-- A cluster of ASCII is one character, or a line end. -/
def IsCluster (g : List Char) : Prop :=
  (∃ c, IsAscii c ∧ g = [c]) ∨ g = ['\r', '\n']

/-- The two clusters do not make up a line end. -/
def Apart (g h : List Char) : Prop := ¬ (g = ['\r'] ∧ h = ['\n'])

/-- What is true of each character of ASCII and of the line end is true of the clusters. -/
@[elab_as_elim]
theorem IsCluster.of_forall {motive : List Char → Prop} {g : List Char} (cluster : IsCluster g)
    (single : ∀ n < 0x80, motive [Char.ofNat n]) (line_end : motive ['\r', '\n']) : motive g := by
  rcases cluster with ⟨c, ascii, rfl⟩ | rfl
  · simpa using single c.toNat ascii
  · exact line_end

theorem IsCluster.isAscii {g : List Char} (cluster : IsCluster g) : ∀ c ∈ g, IsAscii c := by
  rcases cluster with ⟨c, ascii, rfl⟩ | rfl
  · simpa using ascii
  · exact List.all_iff_forall_prop.mp rfl

theorem isAscii_of_mem_flatten {gs : List (List Char)} (clusters : ∀ g ∈ gs, IsCluster g) :
    ∀ c ∈ gs.flatten, IsAscii c := by
  intro c mem
  obtain ⟨g, g_mem, c_mem⟩ := List.mem_flatten.mp mem
  exact (clusters g g_mem).isAscii c c_mem

theorem isCluster_of_mem_lineClusters {cs : List Char} (h : ∀ c ∈ cs, IsAscii c) :
    ∀ g ∈ lineClusters cs, IsCluster g := by
  fun_induction lineClusters cs with
  | case1 => simp
  | case2 c => simpa [IsCluster] using h
  | case3 c d cs line_end ih =>
    obtain ⟨rfl, rfl⟩ := line_end
    exact List.forall_mem_cons.mpr ⟨.inr rfl, ih fun e mem => h e (by simp [mem])⟩
  | case4 c d cs no_end ih =>
    obtain ⟨ascii, rest⟩ := List.forall_mem_cons.mp h
    exact List.forall_mem_cons.mpr ⟨.inl ⟨c, ascii, rfl⟩, ih rest⟩

/-- The first cluster begins with the first character. -/
theorem exists_lineClusters_cons (c : Char) (cs : List Char) :
    ∃ more rest, lineClusters (c :: cs) = (c :: more) :: rest := by
  cases cs with
  | nil => exact ⟨[], [], rfl⟩
  | cons d cs =>
    rw [lineClusters]
    split
    · exact ⟨[d], _, rfl⟩
    · exact ⟨[], _, rfl⟩

theorem isChain_apart_lineClusters (cs : List Char) : (lineClusters cs).IsChain Apart := by
  fun_induction lineClusters cs with
  | case1 => exact .nil
  | case2 => exact .singleton _
  | case3 c d cs line_end ih => exact List.isChain_cons.mpr ⟨fun _ _ both => by simp at both, ih⟩
  | case4 c d cs no_end ih =>
    refine List.isChain_cons.mpr ⟨fun g first both => no_end ?_, ih⟩
    obtain ⟨more, rest, eq⟩ := exists_lineClusters_cons d cs
    rw [eq] at first
    cases first
    obtain ⟨c_eq, d_eq⟩ := both
    exact ⟨(List.cons.inj c_eq).1, (List.cons.inj d_eq).1⟩

theorem lineClusters_flatten {gs : List (List Char)} (clusters : ∀ g ∈ gs, IsCluster g)
    (apart : gs.IsChain Apart) : lineClusters gs.flatten = gs := by
  induction gs with
  | nil => rfl
  | cons g gs ih =>
    obtain ⟨first, others⟩ := List.forall_mem_cons.mp clusters
    have ih := ih others apart.tail
    rcases first with ⟨c, ascii, rfl⟩ | rfl
    · cases gs with
      | nil => rfl
      | cons h gs =>
        obtain ⟨d, more, rfl⟩ : ∃ d more, h = d :: more := by
          rcases others h List.mem_cons_self with ⟨d, -, rfl⟩ | rfl
          · exact ⟨d, [], rfl⟩
          · exact ⟨'\r', ['\n'], rfl⟩
        have no_end : ¬ IsLineEnd c d := by
          rintro ⟨rfl, rfl⟩
          rcases others ('\n' :: more) List.mem_cons_self with ⟨e, -, eq⟩ | eq
          · obtain rfl := (List.cons.inj eq).2
            exact (List.isChain_cons_cons.mp apart).1 ⟨rfl, rfl⟩
          · exact absurd (List.cons.inj eq).1 (by decide)
        rw [List.flatten_cons, List.flatten_cons, List.singleton_append, List.cons_append, lineClusters,
          if_neg no_end]
        exact congrArg ([c] :: ·) ih
    · rw [List.flatten_cons, List.cons_append, List.cons_append, List.nil_append, lineClusters,
        if_pos ⟨rfl, rfl⟩, ih]

/-- **Clusters put together are cut apart again**, where no two of them make up a line end. -/
theorem graphemes_flatten {gs : List (List Char)} (clusters : ∀ g ∈ gs, IsCluster g)
    (apart : gs.IsChain Apart) : graphemes gs.flatten = gs := by
  rw [graphemes_of_isAscii (isAscii_of_mem_flatten clusters), lineClusters_flatten clusters apart]

end ModelGrid.Text
