import ModelGrid.Component.Skeleton
import ModelGrid.Proofs.Component.Template
import ModelGrid.Proofs.Text.Brace
import Mathlib.Data.List.Chain

/-!
# Rendering is simultaneous substitution

`Values.render` goes over the whole text once for each marker, and reads again what it has put for
earlier ones.  `Values.substitute` goes over the template once and reads nothing again.  They agree on
every template whose literal pieces keep their braces to themselves (`Piece.Separated`), for values
without braces, whatever the order of the markers.

An empty value brings the pieces around it together, so it is not enough that no piece holds a pair of
braces: none may have a brace beside a marker.  Literal pieces are whole stretches between markers; two
of them side by side could be the two parts of a marker.

## Main definitions

* `Values.substitute`: the values put in one pass from left to right.
* `Piece.Separated`: literal pieces without pairs of braces, and without braces beside markers.

## Main results

* `substitute_template`: one pass puts all values of a template.
* `render_eq_substitute`: rendering is that pass, in whatever order the markers are taken; and no
  skeleton that is rendered has a pair of braces.
-/

namespace ModelGrid.Component

open Text

/-- The text with the values put in one pass from left to right; `skip` characters at the front belong
to a marker whose value is already put. -/
def Values.substituteFrom (p : Values) : Nat → List Char → List Char
  | _, [] => []
  | skip + 1, _ :: cs => p.substituteFrom skip cs
  | 0, c :: cs =>
    match Marker.all.find? fun m => startsWith m.spelling.toList (c :: cs) with
    | some m => (p.value m).toList ++ p.substituteFrom (m.spelling.toList.length - 1) cs
    | none => c :: p.substituteFrom 0 cs

/-- The text with the values put in one pass from left to right. -/
def Values.substitute (p : Values) (text : String) : String :=
  String.ofList (p.substituteFrom 0 text.toList)

namespace Piece

/-- A piece may stand in front of another.  Of a literal and a marker side by side, the literal has no
brace beside the marker. -/
def MayPrecede : Piece → Piece → Prop
  | .literal text, .marker _ => ∀ c ∈ text.toList.getLast?, ¬ IsBrace c
  | .marker _, .literal text => ∀ c ∈ text.toList.head?, ¬ IsBrace c
  | .literal _, .literal _ => False
  | .marker _, .marker _ => True

/-- Looking at one character decides it; not all characters have to be tried. -/
theorem forall_mem_iff_all {end? : Option Char} :
    (∀ c ∈ end?, ¬ IsBrace c) ↔ (end?.all fun c => !decide (IsBrace c)) = true := by
  cases end? <;> simp

instance : DecidableRel MayPrecede
  | .literal _, .marker _ => decidable_of_iff _ forall_mem_iff_all.symm
  | .marker _, .literal _ => decidable_of_iff _ forall_mem_iff_all.symm
  | .literal _, .literal _ => isFalse id
  | .marker _, .marker _ => isTrue trivial

/-- No two opening and no two closing braces stand side by side in the text. -/
def Unpaired (cs : List Char) : Prop :=
  ¬ ['\x7b', '\x7b'] <:+: cs ∧ ¬ ['\x7d', '\x7d'] <:+: cs

/-- The piece is a marker, or a text without pairs of braces. -/
def Whole : Piece → Prop
  | .literal text => Unpaired text.toList
  | .marker _ => True

/-- The literal pieces are the stretches between the markers.  None has a pair of braces, and none a
brace beside a marker. -/
structure Separated (pieces : List Piece) : Prop where
  literals : ∀ piece ∈ pieces, piece.Whole
  beside : pieces.IsChain MayPrecede

end Piece

variable {p : Values} {pieces : List Piece}

/-! ### One pass -/

/-- A stretch in which no marker begins is kept. -/
theorem substituteFrom_append_of_opensNone {cs rest : List Char} (h : OpensNone cs) :
    p.substituteFrom 0 (cs ++ rest) = cs ++ p.substituteFrom 0 rest := by
  induction cs with
  | nil => rfl
  | cons c cs ih =>
    have none_here :
        (Marker.all.find? fun m => startsWith m.spelling.toList (c :: (cs ++ rest))) = none := by
      rw [List.find?_eq_none]
      intro m _
      rw [m.toList_spelling, ← List.cons_append, h.not_startsWith]
      exact Bool.false_ne_true
    rw [List.cons_append, Values.substituteFrom, none_here]
    exact congrArg (c :: ·) (ih h.tail)

theorem substituteFrom_eq_self {cs : List Char} (closed : ¬ ['\x7b', '\x7b'] <:+: cs) :
    p.substituteFrom 0 cs = cs := by
  induction cs with
  | nil => rfl
  | cons c cs ih =>
    have none_here :
        (Marker.all.find? fun m => startsWith m.spelling.toList (c :: cs)) = none := by
      rw [List.find?_eq_none]
      intro m _
      rw [m.toList_spelling, not_startsWith_of_not_isInfix closed]
      exact Bool.false_ne_true
    rw [Values.substituteFrom, none_here]
    exact congrArg (c :: ·) (ih fun pair => closed (pair.trans (List.suffix_cons c cs).isInfix))

theorem substituteFrom_skip {cs rest : List Char} :
    p.substituteFrom cs.length (cs ++ rest) = p.substituteFrom 0 rest := by
  induction cs with
  | nil => rfl
  | cons c cs ih => exact ih

/-- For a marker its value is put. -/
theorem substituteFrom_spelling_append {m : Marker} {rest : List Char} :
    p.substituteFrom 0 (m.spelling.toList ++ rest) =
      (p.value m).toList ++ p.substituteFrom 0 rest := by
  -- of the markers only `m` begins here
  have found :
      (Marker.all.find? fun other => startsWith other.spelling.toList (m.spelling.toList ++ rest)) =
        some m := by
    have here (other : Marker) :
        startsWith other.spelling.toList (m.spelling.toList ++ rest) = (other == m) := by
      by_cases same : other = m
      · rw [same, startsWith_iff.mpr (List.prefix_append _ _), beq_self_eq_true]
      · rw [Marker.not_startsWith_spelling same, beq_eq_false_iff_ne.mpr same]
    simp only [here]
    cases m <;> rfl
  obtain ⟨c, cs, spelled⟩ : ∃ c cs, m.spelling.toList = c :: cs := ⟨_, _, m.toList_spelling⟩
  rw [spelled, List.cons_append] at found ⊢
  rw [Values.substituteFrom, found]
  dsimp only
  rw [spelled, List.length_cons, Nat.add_sub_cancel, substituteFrom_skip]

theorem substituteFrom_fillSome (plain : ∀ piece ∈ pieces, piece.Plain) {back : List Char}
    (closed : ¬ ['\x7b', '\x7b'] <:+: back) :
    p.substituteFrom 0 (pieces.flatMap (Piece.fillSome p []) ++ back) =
      pieces.flatMap (Piece.fillSome p Marker.all) ++ back := by
  induction pieces with
  | nil => exact substituteFrom_eq_self closed
  | cons piece rest ih =>
    have ih := ih fun piece mem => plain piece (List.mem_cons_of_mem _ mem)
    simp only [List.flatMap_cons, List.append_assoc]
    cases piece with
    | literal text =>
      exact (substituteFrom_append_of_opensNone (plain _ List.mem_cons_self)).trans
        (congrArg (text.toList ++ ·) ih)
    | marker m =>
      have listed : m ∈ Marker.all := by cases m <;> decide
      simp only [Piece.fillSome, listed, List.not_mem_nil, if_true, if_false]
      exact substituteFrom_spelling_append.trans (congrArg ((p.value m).toList ++ ·) ih)

/-! ### Separated pieces -/

namespace Piece.Separated

theorem tail {piece : Piece} (h : Separated (piece :: pieces)) : Separated pieces :=
  ⟨fun other mem => h.literals other (List.mem_cons_of_mem _ mem), h.beside.tail⟩

/-- No marker begins in a literal with a marker behind it. -/
theorem plain_of_mem_dropLast (h : Separated pieces) : ∀ piece ∈ pieces.dropLast, piece.Plain := by
  induction pieces with
  | nil => simp
  | cons first rest ih =>
    cases rest with
    | nil => simp
    | cons next rest =>
      rw [List.dropLast_cons_cons]
      intro piece mem
      rcases List.mem_cons.mp mem with rfl | mem
      · cases piece with
        | marker m => trivial
        | literal text =>
          cases next with
          | literal other => exact (List.isChain_cons_cons.mp h.beside).1.elim
          | marker m =>
            have last : ∀ c ∈ text.toList.getLast?, ¬ IsBrace c :=
              (List.isChain_cons_cons.mp h.beside).1
            exact ⟨(h.literals _ List.mem_cons_self).1, fun brace => last _ brace (.inl rfl)⟩
      · exact ih h.tail piece mem

/-- The pieces of a template up to its last marker, and the literal text behind it. -/
theorem exists_front (h : Separated pieces) :
    ∃ (front : List Piece) (back : List Char), (∀ piece ∈ front, piece.Plain) ∧
      ¬ ['\x7b', '\x7b'] <:+: back ∧
      ∀ p done, pieces.flatMap (fillSome p done) = front.flatMap (fillSome p done) ++ back := by
  have plain := h.plain_of_mem_dropLast
  rcases List.eq_nil_or_concat' pieces with rfl | ⟨init, last, rfl⟩
  · exact ⟨[], [], by simp, by simp, fun _ _ => rfl⟩
  · rw [List.dropLast_concat] at plain
    cases last with
    | literal text =>
      exact ⟨init, text.toList, plain, (h.literals (.literal text) (by simp)).1, fun p done => by
        rw [List.flatMap_append, List.flatMap_singleton]
        rfl⟩
    | marker m =>
      refine ⟨init ++ [.marker m], [], fun piece mem => ?_, by simp, fun p done => by simp⟩
      rcases List.mem_append.mp mem with mem | mem
      · exact plain piece mem
      · rw [List.mem_singleton.mp mem]
        trivial

end Piece.Separated

/-- **One pass puts all values** of a template. -/
theorem substitute_template (separated : Piece.Separated pieces) :
    p.substitute (Piece.template pieces) = Piece.filled p pieces := by
  obtain ⟨front, back, plain, closed, cut⟩ := separated.exists_front
  rw [Values.substitute, toList_template (p := p), cut, substituteFrom_fillSome plain closed, ← cut,
    ← toList_filled (fun m => by cases m <;> decide), String.ofList_toList]

/-- Rendering puts all values at once, in whatever order the markers are taken. -/
theorem renderIn_template (separated : Piece.Separated pieces)
    (values : ∀ m, Braceless (p.value m)) {markers : List Marker} (all : ∀ m, m ∈ markers) :
    p.renderIn markers (Piece.template pieces).toList = (Piece.filled p pieces).toList := by
  obtain ⟨front, back, plain, closed, cut⟩ := separated.exists_front
  have opens_none (m : Marker) : OpensNone (p.value m).toList :=
    opensNone_of_not_mem fun mem => values m _ mem (.inl rfl)
  rw [toList_template (p := p), cut, renderIn_fillSome plain opens_none closed, List.append_nil, ← cut,
    ← toList_filled fun m => List.mem_reverse.mpr (all m)]

/-! ### Pairs of braces -/

/-- A pair of a character stands in one of two texts, or across their border. -/
theorem isInfix_pair_append {c : Char} {a b : List Char} (pair : [c, c] <:+: a ++ b) :
    [c, c] <:+: a ∨ [c, c] <:+: b ∨ a.getLast? = some c ∧ b.head? = some c := by
  induction a with
  | nil => exact .inr (.inl pair)
  | cons d a ih =>
    rcases List.infix_cons_iff.mp pair with front | later
    · obtain ⟨same, front⟩ := List.cons_prefix_cons.mp front
      cases a with
      | nil =>
        obtain ⟨rest, rfl⟩ := front
        exact .inr (.inr ⟨by rw [same]; rfl, rfl⟩)
      | cons e a =>
        obtain ⟨same', -⟩ := List.cons_prefix_cons.mp front
        exact .inl ⟨[], a, by rw [← same, ← same']; rfl⟩
    · rcases ih later with inside | behind | ⟨last, head⟩
      · exact .inl (inside.trans (List.suffix_cons d a).isInfix)
      · exact .inr (.inl behind)
      · refine .inr (.inr ⟨?_, head⟩)
        rw [List.getLast?_cons, last]
        rfl

theorem isInfix_pair_cons_cons {c d e : Char} {cs : List Char} :
    [c, c] <:+: d :: e :: cs ↔ c = d ∧ c = e ∨ [c, c] <:+: e :: cs := by
  rw [List.infix_cons_iff, List.cons_prefix_cons, List.cons_prefix_cons]
  simp

/-- Pairs of braces are looked for in one pass. -/
theorem unpaired_iff {cs : List Char} :
    Piece.Unpaired cs ↔ cs.IsChain fun c d => ¬ (c = d ∧ IsBrace c) := by
  have short {cs : List Char} (one : cs.length < 2) : Piece.Unpaired cs :=
    ⟨fun pair => absurd pair.length_le (by simpa using one),
      fun pair => absurd pair.length_le (by simpa using one)⟩
  induction cs with
  | nil => simp [short]
  | cons c cs ih =>
    cases cs with
    | nil => simp [short]
    | cons d cs =>
      rw [List.isChain_cons_cons]
      simp only [Piece.Unpaired, isInfix_pair_cons_cons, IsBrace] at ih ⊢
      grind

/-- What stands behind a marker does not begin with a brace, also where values are empty. -/
theorem not_isBrace_head_filled (values : ∀ m, Braceless (p.value m))
    (beside : pieces.IsChain Piece.MayPrecede)
    (begins : ∀ text, pieces.head? = some (.literal text) → ∀ c ∈ text.toList.head?, ¬ IsBrace c) :
    ∀ c ∈ (Piece.filled p pieces).toList.head?, ¬ IsBrace c := by
  have every : ∀ m, m ∈ Marker.all := fun m => by cases m <;> decide
  rw [toList_filled every]
  induction pieces with
  | nil => simp
  | cons first rest ih =>
    rw [List.flatMap_cons]
    have later (next : ∀ text, rest.head? = some (.literal text) →
        ∀ c ∈ text.toList.head?, ¬ IsBrace c) := ih beside.tail next
    cases first with
    | literal text =>
      cases chars : text.toList with
      | nil =>
        -- the next piece is a marker
        rw [Piece.fillSome, chars]
        refine later fun other next => ?_
        cases rest with
        | nil => cases next
        | cons piece rest =>
          cases next
          exact (List.isChain_cons_cons.mp beside).1.elim
      | cons d ds =>
        have front := begins text rfl
        rw [chars] at front
        simpa [Piece.fillSome, chars] using front
    | marker m =>
      have listed : m ∈ Marker.all := by cases m <;> decide
      cases chars : (p.value m).toList with
      | nil =>
        rw [Piece.fillSome, if_pos listed, chars]
        refine later fun text next => ?_
        cases rest with
        | nil => cases next
        | cons piece rest =>
          cases next
          exact (List.isChain_cons_cons.mp beside).1
      | cons d ds =>
        have front := values m d (chars ▸ List.mem_cons_self)
        simpa [Piece.fillSome, listed, chars] using front

/-- **A template that is filled** has no pair of braces. -/
theorem unpaired_filled (values : ∀ m, Braceless (p.value m)) (separated : Piece.Separated pieces) :
    Piece.Unpaired (Piece.filled p pieces).toList := by
  have no_pair {c : Char} (brace : IsBrace c)
      (literals : ∀ text, .literal text ∈ pieces → ¬ [c, c] <:+: text.toList) :
      ¬ [c, c] <:+: (Piece.filled p pieces).toList := by
    induction pieces with
    | nil => simp [Piece.filled]
    | cons first rest ih =>
      have split : (Piece.filled p (first :: rest)).toList =
          (Piece.fill p first).toList ++ (Piece.filled p rest).toList := by
        simp [Piece.filled]
      rw [split]
      intro pair
      rcases isInfix_pair_append pair with inside | behind | ⟨last, head⟩
      · cases first with
        | literal text => exact literals text List.mem_cons_self inside
        | marker m => exact values m c (inside.subset List.mem_cons_self) brace
      · exact ih separated.tail (fun text mem => literals text (List.mem_cons_of_mem _ mem)) behind
      · -- a marker ends in no brace, and a literal has a marker behind it
        cases first with
        | marker m => exact values m c (List.mem_of_getLast? last) brace
        | literal text =>
          refine not_isBrace_head_filled values separated.beside.tail (fun other next => ?_) c head brace
          cases rest with
          | nil => cases next
          | cons piece rest =>
            cases next
            exact (List.isChain_cons_cons.mp separated.beside).1.elim
  exact ⟨no_pair (.inl rfl) fun text mem => (separated.literals _ mem).1,
    no_pair (.inr rfl) fun text mem => (separated.literals _ mem).2⟩

/-! ### Rendered templates -/

/-- The templates of a component have their braces apart from their markers. -/
theorem separated_of_mem_files (p : Values) {file : String × List Piece}
    (mem : file ∈ Skeleton.files p) : Piece.Separated file.2 := by
  -- a literal is taken for its characters first; to evaluate its decoding would take long
  have literals : ∀ pieces ∈ [Skeleton.componentClass, Skeleton.componentMarkup,
      Skeleton.dataService, Skeleton.constants], ∀ piece ∈ pieces, piece.Whole := by
    simp only [Skeleton.componentClass, Skeleton.componentMarkup, Skeleton.dataService,
      Skeleton.constants, List.forall_mem_cons, List.not_mem_nil, false_imp_iff, implies_true,
      Piece.Whole, unpaired_iff, String.toList_append, true_and, and_true]
    repeat rw [String.toList_ofList]
    and_intros <;> decide +kernel
  have beside : ∀ pieces ∈ [Skeleton.componentClass, Skeleton.componentMarkup,
      Skeleton.dataService, Skeleton.constants], pieces.IsChain Piece.MayPrecede := by
    simp only [Skeleton.componentClass, Skeleton.componentMarkup, Skeleton.dataService,
      Skeleton.constants, List.forall_mem_cons, List.not_mem_nil, false_imp_iff, implies_true,
      List.isChain_cons_cons, List.isChain_singleton, Piece.MayPrecede, Piece.forall_mem_iff_all,
      String.toList_append, and_true]
    repeat rw [String.toList_ofList]
    and_intros <;> decide +kernel
  have listed : file.2 ∈ (Skeleton.files p).map Prod.snd := List.mem_map_of_mem mem
  exact ⟨literals _ listed, beside _ listed⟩

/-- **Rendering is simultaneous substitution.**  Of values without braces, put into a template whose
literal pieces keep their braces apart from the markers, rendering makes what one pass from left to
right makes, and that is the pieces with their values; the order of the markers makes no difference.
The templates of a component are such, so what is made of them for names without braces has no pair of
braces. -/
theorem render_eq_substitute (values : ∀ m, Braceless (p.value m))
    (separated : Piece.Separated pieces) :
    (p.render (Piece.template pieces) = p.substitute (Piece.template pieces) ∧
      p.substitute (Piece.template pieces) = Piece.filled p pieces ∧
      ∀ markers : List Marker, markers.Perm Marker.all →
        p.renderIn markers (Piece.template pieces).toList =
          (p.render (Piece.template pieces)).toList) ∧
    ∀ name modelName, Braceless name → Braceless modelName →
      ∀ file ∈ Skeleton.files (.ofNames name modelName), Piece.Separated file.2 ∧
        Piece.Unpaired ((Values.ofNames name modelName).render (Piece.template file.2)).toList := by
  have render_eq {p : Values} {pieces : List Piece} (values : ∀ m, Braceless (p.value m))
      (separated : Piece.Separated pieces) :
      p.render (Piece.template pieces) = Piece.filled p pieces := by
    rw [Values.render, renderIn_template separated values fun m => by cases m <;> decide,
      String.ofList_toList]
  refine ⟨⟨?_, substitute_template separated, fun markers order => ?_⟩, ?_⟩
  · rw [render_eq values separated, substitute_template separated]
  · have all (m : Marker) : m ∈ markers := order.mem_iff.mpr (by cases m <;> decide)
    rw [renderIn_template separated values all, render_eq values separated]
  · intro name modelName name_plain model_plain file mem
    have apart := separated_of_mem_files _ mem
    have values (m : Marker) : Braceless ((Values.ofNames name modelName).value m) := by
      cases m with
      | name => exact name_plain
      | dashedName => exact name_plain.kebabCase
      | className => exact name_plain.pascalCase
      | modelName => exact model_plain
      | modelFileName => exact model_plain.kebabCase
    rw [render_eq values apart]
    exact ⟨apart, unpaired_filled values apart⟩

/-- Braces at both ends of a template, two markers side by side, one of them without a value. -/
theorem render_eq_substitute_ends :
    let p : Values := ⟨"", "a-b", "AB", "M", "m"⟩
    let pieces : List Piece :=
      [.literal "\x7b x ", .marker .name, .marker .className, .literal " \x7d y", .marker .name,
        .literal " \x7b"]
    (∀ m, Braceless (p.value m)) ∧ Piece.Separated pieces ∧
      p.render (Piece.template pieces) = p.substitute (Piece.template pieces) ∧
      p.substitute (Piece.template pieces) = "\x7b x AB \x7d y \x7b" ∧
      p.renderIn Marker.all.reverse (Piece.template pieces).toList =
        (p.render (Piece.template pieces)).toList := by
  intro p pieces
  have values : ∀ m, Braceless (p.value m) := by
    intro m
    cases m <;> decide +kernel
  have separated : Piece.Separated pieces := by
    constructor
    · simp only [pieces, List.forall_mem_cons, List.not_mem_nil, false_imp_iff, implies_true,
        Piece.Whole, unpaired_iff, true_and, and_true]
      decide +kernel
    · decide +kernel
  obtain ⟨⟨rendered, substituted, ordered⟩, -⟩ := render_eq_substitute values separated
  have filled : Piece.filled p pieces = "\x7b x AB \x7d y \x7b" := by decide +kernel
  exact ⟨values, separated, rendered, substituted.trans filled,
    ordered _ (List.reverse_perm Marker.all)⟩

end ModelGrid.Component
