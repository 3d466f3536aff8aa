import ModelGrid.Proofs.Json.Grammar

/-!
# Texts of JSON values

The grammar of values, and the reading of a text by it.  A text is read as a value if and only if it
writes it, so no text writes two values, and nothing else about the reading counts: how much white
space there is, or which of the spellings of a character is taken.

The reading goes down into arrays and objects with fuel, and so the induction from what is read to
what is written is on the fuel.  The other one is on what is written: it says that twice the length of
the text is fuel enough, as each step down takes a bracket and each step onward a comma.

## Main definitions

* `Json.Writes`, `Json.WritesItems`, `Json.WritesMember`, `Json.WritesMembers`: the front of a text
  writes a value, the items of an array, a member, and the members of an object.
* `Json.IsTextOf`: a text writes a value, with white space around it.

## Main results

* `Json.parse?_eq_some_iff`: a text is read as the value that it writes.
-/

namespace ModelGrid.Json

/-! ### The grammar -/

mutual

/-- The front of a text writes a value. -/
inductive Writes : List Char → Json → List Char → Prop
  | nullWord {rest} : Writes ("null".toList ++ rest) .null rest
  | trueWord {rest} : Writes ("true".toList ++ rest) (.bool true) rest
  | falseWord {rest} : Writes ("false".toList ++ rest) (.bool false) rest
  | number {spelling rest} (is_number : IsNumber spelling) :
      Writes (spelling ++ rest) (.number spelling) rest
  | string {cs units rest} (tail : WritesTail cs units rest) :
      Writes ('"' :: cs) (.string (textOfUnits units)) rest
  | emptyArray {cs rest} (space : Spaces cs (']' :: rest)) : Writes ('[' :: cs) (.array []) rest
  | array {cs items rest} (inside : WritesItems cs items rest) :
      Writes ('[' :: cs) (.array items) rest
  | emptyObject {cs rest} (space : Spaces cs ('\x7d' :: rest)) :
      Writes ('\x7b' :: cs) (.object []) rest
  | object {cs members rest} (inside : WritesMembers cs members rest) :
      Writes ('\x7b' :: cs) (.object members) rest

/-- The front of a text writes the items of an array, one or more, up to its closing bracket. -/
inductive WritesItems : List Char → List Json → List Char → Prop
  | last {cs start item after rest} (space : Spaces cs start) (first : Writes start item after)
      (close : Spaces after (']' :: rest)) : WritesItems cs [item] rest
  | more {cs start item after next items rest} (space : Spaces cs start)
      (first : Writes start item after) (comma : Spaces after (',' :: next))
      (later : WritesItems next items rest) : WritesItems cs (item :: items) rest

/-- The front of a text writes a member of an object: a key, a colon and a value. -/
inductive WritesMember : List Char → Option String × Json → List Char → Prop
  | mk {cs start units afterKey next begin item after} (space : Spaces cs ('"' :: start))
      (key : WritesTail start units afterKey) (colon : Spaces afterKey (':' :: next))
      (space' : Spaces next begin) (value : Writes begin item after) :
      WritesMember cs (textOfUnits units, item) after

/-- The front of a text writes the members of an object, one or more, up to its closing brace. -/
inductive WritesMembers : List Char → List (Option String × Json) → List Char → Prop
  | last {cs member after rest} (first : WritesMember cs member after)
      (close : Spaces after ('\x7d' :: rest)) : WritesMembers cs [member] rest
  | more {cs member after next members rest} (first : WritesMember cs member after)
      (comma : Spaces after (',' :: next)) (later : WritesMembers next members rest) :
      WritesMembers cs (member :: members) rest

end

/-- The text writes the value, with white space around it. -/
def IsTextOf (text : String) (value : Json) : Prop :=
  ∃ start after, Spaces text.toList start ∧ Writes start value after ∧ Spaces after []

variable {cs start rest after : List Char} {value : Json} {items : List Json}
  {member : Option String × Json} {members : List (Option String × Json)} {fuel : Nat}

/-! ### What is read is written -/

theorem WritesItems.of_spaces (space : Spaces cs start) (writes : WritesItems start items rest) :
    WritesItems cs items rest := by
  cases writes with
  | last space' first close => exact .last (space.trans space') first close
  | more space' first comma later => exact .more (space.trans space') first comma later

theorem WritesMembers.of_spaces (space : Spaces cs start)
    (writes : WritesMembers start members rest) : WritesMembers cs members rest := by
  have of_member {member : Option String × Json} {after : List Char}
      (writes : WritesMember start member after) : WritesMember cs member after := by
    obtain ⟨space', key, colon, space'', value⟩ := writes
    exact .mk (space.trans space') key colon space'' value
  cases writes with
  | last first close => exact .last (of_member first) close
  | more first comma later => exact .more (of_member first) comma later

theorem word?_eq_some {word : List Char} : word? word cs = some rest ↔ cs = word ++ rest := by
  induction word generalizing cs with
  | nil => rw [word?, Option.some_inj, List.nil_append]
  | cons w word ih =>
    cases cs with
    | nil => simp [word?]
    | cons c cs =>
      by_cases same : w = c
      · simp [word?, same, ih]
      · simp [word?, same, Ne.symm same]

/-- A value is read of which a step down is written as it is read. -/
theorem writes_of_value?_succ
    (items_read : ∀ {cs items rest}, items? fuel cs = some (items, rest) → WritesItems cs items rest)
    (members_read : ∀ {cs members rest}, members? fuel cs = some (members, rest) →
      WritesMembers cs members rest)
    (read : value? (fuel + 1) cs = some (value, rest)) :
    Writes (skipSpace cs) value rest := by
  rw [value?] at read
  -- the first character decides what is read
  split at read
  next => cases read
  next cs eq =>
    obtain ⟨⟨text, after⟩, found, same⟩ := Option.map_eq_some_iff.mp read
    cases same
    obtain ⟨units, tail, rfl⟩ := string?_eq_some.mp found
    rw [eq]
    exact .string tail
  next cs eq =>
    rw [eq]
    split at read
    next after closed =>
      cases read
      exact .emptyArray (closed ▸ spaces_skipSpace cs)
    next =>
      obtain ⟨⟨items, after⟩, found, same⟩ := Option.map_eq_some_iff.mp read
      cases same
      exact .array ((items_read found).of_spaces (spaces_skipSpace cs))
  next cs eq =>
    rw [eq]
    split at read
    next after closed =>
      cases read
      exact .emptyObject (closed ▸ spaces_skipSpace cs)
    next =>
      obtain ⟨⟨members, after⟩, found, same⟩ := Option.map_eq_some_iff.mp read
      cases same
      exact .object ((members_read found).of_spaces (spaces_skipSpace cs))
  next c cs _ _ _ eq =>
    rw [eq]
    dsimp only at read
    split at read
    next after word =>
      cases read
      rw [word?_eq_some.mp word]
      exact .nullWord
    next =>
      split at read
      next after word =>
        cases read
        rw [word?_eq_some.mp word]
        exact .trueWord
      next =>
        split at read
        next after word =>
          cases read
          rw [word?_eq_some.mp word]
          exact .falseWord
        next =>
          obtain ⟨⟨spelling, after⟩, found, same⟩ := Option.map_eq_some_iff.mp read
          cases same
          obtain ⟨is_number, eq⟩ := number?_eq_some found
          rw [eq]
          exact .number is_number

/-- **What is read is written**, by induction on the fuel. -/
theorem writes_of_read (fuel : Nat) :
    (∀ {cs value rest}, value? fuel cs = some (value, rest) → Writes (skipSpace cs) value rest) ∧
    (∀ {cs items rest}, items? fuel cs = some (items, rest) → WritesItems cs items rest) ∧
    ∀ {cs members rest}, members? fuel cs = some (members, rest) → WritesMembers cs members rest := by
  induction fuel with
  | zero => exact ⟨nofun, nofun, nofun⟩
  | succ fuel ih =>
    obtain ⟨value_read, items_read, members_read⟩ := ih
    refine ⟨writes_of_value?_succ items_read members_read, fun {cs items rest} read => ?_,
      fun {cs members rest} read => ?_⟩
    · rw [items?] at read
      split at read
      next => cases read
      next item after found =>
        have first := value_read found
        have behind := spaces_skipSpace after
        split at read
        next closed =>
          cases read
          exact .last (spaces_skipSpace cs) first (closed ▸ behind)
        next comma =>
          obtain ⟨⟨items, final⟩, later, same⟩ := Option.map_eq_some_iff.mp read
          cases same
          exact .more (spaces_skipSpace cs) first (comma ▸ behind) (items_read later)
        next => cases read
    · rw [members?] at read
      split at read
      next start quote =>
        split at read
        next => cases read
        next key afterKey found =>
          obtain ⟨units, tail, rfl⟩ := string?_eq_some.mp found
          split at read
          next afterColon colon =>
            split at read
            next => cases read
            next item afterItem found =>
              have first : WritesMember cs (textOfUnits units, item) afterItem :=
                .mk (quote ▸ spaces_skipSpace cs) tail (colon ▸ spaces_skipSpace afterKey)
                  (spaces_skipSpace afterColon) (value_read found)
              have behind := spaces_skipSpace afterItem
              split at read
              next closed =>
                cases read
                exact .last first (closed ▸ behind)
              next comma =>
                obtain ⟨⟨members, final⟩, later, same⟩ := Option.map_eq_some_iff.mp read
                cases same
                exact .more first (comma ▸ behind) (members_read later)
              next => cases read
          next => cases read
      next => cases read

/-! ### What is written is read -/

theorem value_shorter {units : List (Option Char)} {afterKey next begin : List Char}
    (space : Spaces cs ('"' :: start)) (key : WritesTail start units afterKey)
    (colon : Spaces afterKey (':' :: next)) (space' : Spaces next begin) :
    begin.length < cs.length := by
  have front := space.length_le
  have shorter := key.length_lt
  have behind := colon.length_le
  have front' := space'.length_le
  simp only [List.length_cons] at front behind
  omega

mutual

theorem Writes.length_lt : ∀ {cs value rest}, Writes cs value rest → rest.length < cs.length
  | _, _, _, .nullWord | _, _, _, .trueWord | _, _, _, .falseWord => by
    simp only [List.length_append, String.length_toList]
    exact Nat.lt_add_of_pos_left (by decide)
  | _, _, _, .number is_number => by
    obtain ⟨c, more, rfl, -⟩ := is_number.exists_cons
    simp only [List.length_append, List.length_cons]
    omega
  | _, _, _, .string tail => Nat.lt_succ_of_lt tail.length_lt
  | _, _, _, .emptyArray space | _, _, _, .emptyObject space =>
    Nat.lt_succ_of_lt (Nat.lt_of_lt_of_le (Nat.lt_succ_self _) space.length_le)
  | _, _, _, .array inside => Nat.lt_succ_of_lt inside.length_lt
  | _, _, _, .object inside => Nat.lt_succ_of_lt inside.length_lt

theorem WritesItems.length_lt :
    ∀ {cs items rest}, WritesItems cs items rest → rest.length < cs.length
  | _, _, _, .last space first close => by
    have shorter := first.length_lt
    have front := space.length_le
    have behind := close.length_le
    simp only [List.length_cons] at behind
    omega
  | _, _, _, .more space first comma later => by
    have shorter := first.length_lt
    have shorter' := later.length_lt
    have front := space.length_le
    have behind := comma.length_le
    simp only [List.length_cons] at behind
    omega

theorem WritesMember.length_lt :
    ∀ {cs member rest}, WritesMember cs member rest → rest.length < cs.length
  | _, _, _, .mk space key colon space' value =>
    Nat.lt_trans value.length_lt (value_shorter space key colon space')

theorem WritesMembers.length_lt :
    ∀ {cs members rest}, WritesMembers cs members rest → rest.length < cs.length
  | _, _, _, .last first close => by
    have shorter := first.length_lt
    have behind := close.length_le
    simp only [List.length_cons] at behind
    omega
  | _, _, _, .more first comma later => by
    have shorter := first.length_lt
    have shorter' := later.length_lt
    have behind := comma.length_le
    simp only [List.length_cons] at behind
    omega

end

/-- A value begins with what is no white space, and closes no array. -/
theorem Writes.exists_cons (writes : Writes start value rest) :
    ∃ c more, start = c :: more ∧ isSpace c = false ∧ c ≠ ']' := by
  cases writes with
  | number is_number =>
    obtain ⟨c, more, rfl, minus | digit⟩ := is_number.exists_cons
    · exact ⟨c, _, rfl, by rw [minus]; decide, by rw [minus]; decide⟩
    · refine ⟨c, _, rfl, Bool.eq_false_iff.mpr fun space => ?_, ?_⟩
      · have spaces : c = ' ' ∨ c = '\n' ∨ c = '\t' ∨ c = '\r' := by
          simpa [isSpace, or_assoc] using space
        rcases spaces with rfl | rfl | rfl | rfl <;> cases digit
      · rintro rfl
        cases digit
  | _ => exact ⟨_, _, rfl, by decide, by decide⟩

/-- White space is skipped up to a value. -/
theorem Writes.skipSpace_eq (writes : Writes start value rest) (space : Spaces cs start) :
    skipSpace cs = start := by
  obtain ⟨c, more, rfl, no_space, -⟩ := writes.exists_cons
  refine space.skipSpace_eq fun c' mem => ?_
  cases mem
  exact no_space

theorem WritesItems.exists_cons (writes : WritesItems cs items rest) :
    ∃ c more, skipSpace cs = c :: more ∧ c ≠ ']' := by
  cases writes with
  | last space first _ | more space first _ _ =>
    obtain ⟨c, more, eq, -, no_close⟩ := first.exists_cons
    exact ⟨c, more, (first.skipSpace_eq space).trans eq, no_close⟩

theorem WritesMember.exists_cons (writes : WritesMember cs member rest) :
    ∃ more, skipSpace cs = '"' :: more := by
  obtain ⟨space, -, -, -, -⟩ := writes
  exact ⟨_, space.skipSpace_eq fun c mem => by cases mem; decide⟩

theorem WritesMembers.exists_cons (writes : WritesMembers cs members rest) :
    ∃ more, skipSpace cs = '"' :: more := by
  cases writes with
  | last first _ | more first _ _ => exact first.exists_cons

/-! What is read is behind white space, so it does not matter whether that has been skipped before. -/

@[simp] theorem value?_skipSpace : value? fuel (skipSpace cs) = value? fuel cs := by
  cases fuel with
  | zero => rfl
  | succ fuel => rw [value?, value?, skipSpace_skipSpace]

@[simp] theorem items?_skipSpace : items? fuel (skipSpace cs) = items? fuel cs := by
  cases fuel with
  | zero => rfl
  | succ fuel => rw [items?, items?, value?_skipSpace]

@[simp] theorem members?_skipSpace : members? fuel (skipSpace cs) = members? fuel cs := by
  cases fuel with
  | zero => rfl
  | succ fuel => rw [members?, members?, skipSpace_skipSpace]

/-! What a value begins with says how it is read. -/

theorem value?_quote (skipped : skipSpace cs = '"' :: start) :
    value? (fuel + 1) cs = (string? start).map fun (text, after) => (.string text, after) := by
  rw [value?, skipped]
  rfl

theorem value?_bracket {c : Char} (skipped : skipSpace cs = '[' :: start)
    (inside : skipSpace start = c :: rest) (no_close : c ≠ ']') :
    value? (fuel + 1) cs =
      (items? fuel start).map fun (items, after) => (Json.array items, after) := by
  rw [value?, skipped]
  split
  next eq => cases eq
  next eq => cases eq
  next eq =>
    cases eq
    rw [← items?_skipSpace, inside]
    split
    next same =>
      cases same
      exact absurd rfl no_close
    next => rfl
  next eq => cases eq
  next no_bracket _ eq =>
    cases eq
    exact (no_bracket rfl).elim

theorem value?_brace {c : Char} (skipped : skipSpace cs = '\x7b' :: start)
    (inside : skipSpace start = c :: rest) (no_close : c ≠ '\x7d') :
    value? (fuel + 1) cs =
      (members? fuel start).map fun (members, after) => (Json.object members, after) := by
  rw [value?, skipped]
  split
  next eq => cases eq
  next eq => cases eq
  next eq => cases eq
  next eq =>
    cases eq
    rw [← members?_skipSpace, inside]
    split
    next same =>
      cases same
      exact absurd rfl no_close
    next => rfl
  next no_brace eq =>
    cases eq
    exact (no_brace rfl).elim

/-- No word begins with a minus or a digit. -/
theorem word?_eq_none {c w : Char} {word : List Char} (numeric : c = '-' ∨ c.isDigit = true)
    (letter : w.isAlpha = true) : word? (w :: word) (c :: rest) = none := by
  have differ : (w == c) = false := by
    rw [beq_eq_false_iff_ne]
    rintro rfl
    rcases numeric with rfl | digit
    · cases letter
    · delta Char.isAlpha Char.isUpper Char.isLower at letter
      delta Char.isDigit at digit
      simp only [Bool.or_eq_true, Bool.and_eq_true, decide_eq_true_eq, ge_iff_le,
        UInt32.le_iff_toNat_le] at letter digit
      simp at letter digit
      omega
  rw [word?, differ]
  rfl

theorem value?_number {c : Char} (skipped : skipSpace cs = c :: start)
    (numeric : c = '-' ∨ c.isDigit = true) :
    value? (fuel + 1) cs =
      (number? (c :: start)).map fun (spelling, after) => (.number spelling, after) := by
  rw [value?, skipped]
  have no_null : word? "null".toList (c :: start) = none := word?_eq_none numeric (w := 'n') rfl
  have no_true : word? "true".toList (c :: start) = none := word?_eq_none numeric (w := 't') rfl
  have no_false : word? "false".toList (c :: start) = none := word?_eq_none numeric (w := 'f') rfl
  split
  next eq => cases eq
  next eq => cases eq; rcases numeric with minus | digit <;> contradiction
  next eq => cases eq; rcases numeric with minus | digit <;> contradiction
  next eq => cases eq; rcases numeric with minus | digit <;> contradiction
  next eq =>
    cases eq
    simp only [no_null, no_true, no_false]

section Member

variable {units : List (Option Char)} {afterKey next : List Char}

/-- The last member is read. -/
theorem members?_last (space : Spaces cs ('"' :: start)) (key : WritesTail start units afterKey)
    (colon : Spaces afterKey (':' :: next)) (read : value? fuel next = some (value, after))
    (close : Spaces after ('\x7d' :: rest)) :
    members? (fuel + 1) cs = some ([(textOfUnits units, value)], rest) := by
  simp only [members?, space.skipSpace_mark rfl, string?_eq_some.mpr ⟨_, key, rfl⟩,
    colon.skipSpace_mark rfl, read, close.skipSpace_mark rfl]

/-- A member is read before the ones behind it. -/
theorem members?_more {more : List Char} (space : Spaces cs ('"' :: start))
    (key : WritesTail start units afterKey) (colon : Spaces afterKey (':' :: next))
    (read : value? fuel next = some (value, after)) (comma : Spaces after (',' :: more))
    (later : members? fuel more = some (members, rest)) :
    members? (fuel + 1) cs = some ((textOfUnits units, value) :: members, rest) := by
  simp only [members?, space.skipSpace_mark rfl, string?_eq_some.mpr ⟨_, key, rfl⟩,
    colon.skipSpace_mark rfl, read, comma.skipSpace_mark rfl, later, Option.map_some]

end Member

/-! Fuel for twice the length of a text is enough, as one step down goes behind a bracket and one step
onward behind a comma. -/

mutual

theorem Writes.value?_eq : ∀ {start value rest}, Writes start value rest →
    ∀ {cs fuel}, Spaces cs start → Follows rest → 2 * start.length < fuel →
      value? fuel cs = some (value, rest)
  | _, _, _, writes, _, 0, _, _, enough => absurd enough (Nat.not_lt_zero _)
  | _, _, _, .nullWord, cs, fuel + 1, space, _, _ | _, _, _, .trueWord, cs, fuel + 1, space, _, _
  | _, _, _, .falseWord, cs, fuel + 1, space, _, _ => by
    rw [value?, space.skipSpace_mark rfl]
    rfl
  | _, _, _, .number is_number, cs, fuel + 1, space, follows, _ => by
    have skipped := (Writes.number is_number).skipSpace_eq space
    obtain ⟨c, more, rfl, numeric⟩ := is_number.exists_cons
    rw [value?_number skipped numeric]
    exact congrArg (Option.map _) (number?_append is_number follows)
  | _, _, _, .string tail, cs, fuel + 1, space, _, _ => by
    rw [value?_quote (space.skipSpace_mark rfl), string?_eq_some.mpr ⟨_, tail, rfl⟩]
    rfl
  | _, _, _, .emptyArray inner, cs, fuel + 1, space, _, _ => by
    simp only [value?, space.skipSpace_mark rfl, inner.skipSpace_mark rfl]
  | _, _, _, .emptyObject inner, cs, fuel + 1, space, _, _ => by
    simp only [value?, space.skipSpace_mark rfl, inner.skipSpace_mark rfl]
  | _, _, _, .array inside, cs, fuel + 1, space, _, enough => by
    obtain ⟨c, more, begins, no_close⟩ := inside.exists_cons
    rw [value?_bracket (space.skipSpace_mark rfl) begins no_close,
      inside.items?_eq (Nat.lt_succ_iff.mp enough)]
    rfl
  | _, _, _, .object inside, cs, fuel + 1, space, _, enough => by
    obtain ⟨more, begins⟩ := inside.exists_cons
    rw [value?_brace (space.skipSpace_mark rfl) begins (by decide),
      inside.members?_eq (Nat.lt_succ_iff.mp enough)]
    rfl

theorem WritesItems.items?_eq : ∀ {cs items rest}, WritesItems cs items rest →
    ∀ {fuel}, 2 * (cs.length + 1) ≤ fuel → items? fuel cs = some (items, rest)
  | _, _, _, _, 0, enough => absurd enough (by omega)
  | _, _, _, .last space first close, fuel + 1, enough => by
    have front := space.length_le
    have follows := close.follows (follows_mark (.inr (.inl rfl)))
    have read : value? fuel _ = some (_, _) := first.value?_eq space follows (by omega)
    simp only [items?, read, close.skipSpace_mark rfl]
  | _, _, _, .more space first comma later, fuel + 1, enough => by
    have front := space.length_le
    have shorter := first.length_lt
    have behind := comma.length_le
    simp only [List.length_cons] at behind
    have follows := comma.follows (follows_mark (.inl rfl))
    have read : value? fuel _ = some (_, _) := first.value?_eq space follows (by omega)
    have read_later : items? fuel _ = some (_, _) := later.items?_eq (by omega)
    simp only [items?, read, comma.skipSpace_mark rfl, read_later, Option.map_some]

theorem WritesMembers.members?_eq : ∀ {cs members rest}, WritesMembers cs members rest →
    ∀ {fuel}, 2 * (cs.length + 1) ≤ fuel → members? fuel cs = some (members, rest)
  | _, _, _, _, 0, enough => absurd enough (by omega)
  | _, _, _, .last (.mk space key colon space' value) close, fuel + 1, enough => by
    have shorter := value_shorter space key colon space'
    have follows := close.follows (follows_mark (.inr (.inr rfl)))
    have read : value? fuel _ = some (_, _) := value.value?_eq space' follows (by omega)
    exact members?_last space key colon read close
  | _, _, _, .more (.mk space key colon space' value) comma later, fuel + 1, enough => by
    have shorter := value_shorter space key colon space'
    have shorter' := value.length_lt
    have behind := comma.length_le
    simp only [List.length_cons] at behind
    have follows := comma.follows (follows_mark (.inl rfl))
    have read : value? fuel _ = some (_, _) := value.value?_eq space' follows (by omega)
    have read_later : members? fuel _ = some (_, _) := later.members?_eq (by omega)
    exact members?_more space key colon read comma read_later

end

/-- **A text is read as the value that it writes.** -/
theorem parse?_eq_some_iff {text : String} : parse? text = some value ↔ IsTextOf text value := by
  constructor
  · intro read
    rw [parse?] at read
    split at read
    next => cases read
    next found rest read_front =>
      split at read
      next blank =>
        cases read
        exact ⟨_, rest, spaces_skipSpace _, (writes_of_read _).1 read_front,
          List.isEmpty_iff.mp blank ▸ spaces_skipSpace rest⟩
      next => cases read
  · rintro ⟨start, rest, space, writes, blank⟩
    have skipped : skipSpace rest = [] := blank.skipSpace_eq nofun
    have enough : 2 * start.length < 2 * text.toList.length + 1 :=
      Nat.lt_succ_of_le (Nat.mul_le_mul_left 2 space.length_le)
    have read := writes.value?_eq space (blank.follows nofun) enough
    simp only [parse?, read, skipped, List.isEmpty_nil, if_true]

end ModelGrid.Json
