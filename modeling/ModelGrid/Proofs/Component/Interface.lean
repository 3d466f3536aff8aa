import ModelGrid.Proofs.Component.Contribution
import ModelGrid.Proofs.Syntax.Layout
import ModelGrid.Proofs.Syntax.Place
import ModelGrid.Proofs.Syntax.Value

/-!
# The interface read back

The interface that describes an object of a model, laid out with all names open, and what it says to
the grammar.  Its members are not separated by any mark: each ends where the next line begins.  The
induction over the properties therefore needs of the token behind a member only that it is on a new
line and goes on with no type, which a name and the closing brace both do, even a name that is a word
of the language.

## Main definitions

* `Layout.interfaceFields`: the layout of the members.
* `Document.interface?`: what a file says that is one exported interface.

## Main results

* `Grammar.typeMember_property`: a member, whatever word its name is.
* `interface?_interfaceDeclaration`: the declaration is one exported interface with the names and
  the types of the properties.
* `interface?_of_readSource`: the interface of a source.
-/

namespace ModelGrid.Syntax

/-! ### Members -/

namespace Grammar

open Phrase Rules

variable {n : Nat} {s : Token}

/-- A word in front of a colon is the name of a member, whatever else it means. -/
theorem typeMemberModifier_of_colon {k c : Token} (colon : c.kind = .mark .colon)
    (tokens : List Token) : typeMemberModifier (k :: c :: tokens) = none := by
  refine modifier_eq_none ?_ (by simp [Token.isWord, colon])
  simp only [List.forall_mem_cons, List.not_mem_nil, false_implies, implies_true, and_true]
  exact ⟨⟨_, _, rfl⟩, ⟨_, _, rfl⟩, ⟨_, _, rfl⟩, ⟨_, _, rfl⟩, ⟨_, _, rfl⟩, ⟨_, _, rfl⟩, ⟨_, _, rfl⟩,
    ⟨_, _, rfl⟩, ⟨_, _, rfl⟩, ⟨_, _, rfl⟩⟩

/-- The tree of a member with a type of the language, over its name, the colon and the type. -/
def memberNode (k c u : Token) : Node :=
  .branch .propertySignature
    [.leaf .propertyIdentifier k.start k.stop,
     .branch .typeAscription
       [.leaf .punctuation c.start c.stop, .leaf .predefinedType u.start u.stop]]

/-- A member of an interface: a word with a type of the language. -/
theorem typeMember_property (n : Nat) (rest : List Token) {k c u : Token} {keyword : Keyword}
    (key : k.isWord = true) (colon : c.kind = .mark .colon)
    (type : u.kind = .word (some keyword)) (predefined : keyword ∈ typeWords) (ends : EndsType s) :
    (read (n + 2)).typeMember (k :: c :: u :: s :: rest) =
      some ([memberNode k c u], s :: rest) := by
  obtain ⟨word, kind⟩ := Token.isWord_iff.mp key
  have no_signature : (read (n + 2)).indexSignature (k :: c :: u :: s :: rest) = none := by
    by_cases readonly : word = some .readonlyWord <;>
      simp [indexSignature, mappedModifier, kind, readonly, colon]
  have read_type := read_type_predefined n rest type predefined ends
  -- The word `new` begins a signature only in front of a parenthesis.
  by_cases new : word = some .newWord <;>
    simp [typeMember, no_signature, signature, typeParameters, parameters,
      typeMemberModifier_of_colon, propertyName, typeAscription, Token.isWord, kind, new, colon,
      read_type, kindOfMark, memberNode]

/-- What the members of an interface are read with, and the marks between them. -/
def interfaceItem (n : Nat) : Phrase :=
  first
    [mark .comma, mark .semicolon,
     seq [(read n).typeMember, first [mark .comma, semicolon]]]

/-- The token does not go on with the member in front of it. -/
structure EndsMember (t : Token) : Prop where
  type : EndsType t
  line : t.afterBreak = true
  no_mark : t.kind ≠ .mark .comma ∧ t.kind ≠ .mark .semicolon

/-- A member whose line ends behind it. -/
theorem reads_member (n : Nat) (rest : List Token) {k c u : Token} {keyword : Keyword}
    (key : k.isWord = true) (colon : c.kind = .mark .colon)
    (type : u.kind = .word (some keyword)) (predefined : keyword ∈ typeWords) (ends : EndsMember s) :
    Reads (interfaceItem (n + 2)) (k :: c :: u :: s :: rest) [memberNode k c u] (s :: rest) := by
  have member := typeMember_property n rest key colon type predefined ends.type
  obtain ⟨word, kind⟩ := Token.isWord_iff.mp key
  exact .single (by simp [interfaceItem, kind, member, ends.line, ends.no_mark]) (by simp)

/-- The tree of an interface that is exported, over its words, its braces and its members. -/
def interfaceNode (e i x o : Token) (members : List Node) (b : Token) : Node :=
  .branch .exportStatement
    [.leaf .keyword e.start e.stop,
     .branch .interfaceDeclaration
       [.leaf .keyword i.start i.stop, .leaf .typeIdentifier x.start x.stop,
        .branch .interfaceBody
          (.leaf .openBrace o.start o.stop :: members ++ [.leaf .punctuation b.start b.stop])]]

/-- An interface that is exported. -/
theorem read_interface (n : Nat) {e i x o b : Token} {tokens rest : List Token} {nodes : List Node}
    (export' : e.kind = .word (some .exportWord)) (interface' : i.kind = .word (some .interfaceWord))
    (name : x.isIdentifier = true) (line : x.afterBreak = false) (opens : o.kind = .mark .openBrace)
    (members : Reads (interfaceItem n) tokens nodes (b :: rest))
    (closes : b.kind = .mark .closeBrace) :
    read (n + 1) .statement (e :: i :: x :: o :: tokens) =
      some ([interfaceNode e i x o nodes b], rest) := by
  have no_member : (read n).typeMember (b :: rest) = none := by
    simp [typeMember, indexSignature, mappedModifier, signature, typeParameters, parameters,
      typeMemberModifier, propertyName, Token.isWord, closes]
  have list := members.many_eq (by simp [interfaceItem, no_member, closes])
  rw [interfaceItem] at list
  rw [read_statement_of_plain (by simp [BeginsPlainStatement, export'])]
  simp [decoratedStatement, exportStatement, exportClause, importStatement, ambientDeclaration,
    declaration, variableList, function, classDeclaration, interface, typeMembers, typeParameters,
    Rules.decorator, export', interface', name, line, opens, list, closes, kindOfMark,
    interfaceNode]

end Grammar

/-! ### What an interface says -/

/-- The characters of a word that may name what is declared. -/
def Lexeme.IsIdentifier (cs : List Char) : Prop :=
  IsWord cs ∧ ∀ keyword, Keyword.ofChars? cs = some keyword → keyword.isReserved = false

instance (cs : List Char) : Decidable (Lexeme.IsIdentifier cs) :=
  decidable_of_iff
    (Lexeme.IsWord cs ∧ (Keyword.ofChars? cs).all (fun keyword => !keyword.isReserved) = true)
    (by simp [Lexeme.IsIdentifier, Option.all_eq_true])

/-- The name and the type of a member with a plain name and a type, by their characters. -/
def Node.member? (text : List Char) (n : Node) : Option (List Char × List Char) :=
  match n.children with
  | [key, ascription] =>
    if n.kind == .propertySignature && key.kind == .propertyIdentifier then
      match ascription.constructs with
      | [type] => some (key.chars text, type.chars text)
      | _ => none
    else none
  | _ => none

/-- An interface: its name, and its members in order, each with its type. -/
structure Interface where
  name : List Char
  members : List (List Char × List Char)
  deriving DecidableEq, Repr

/-- What a file says that is one statement without errors: an interface that is exported, with
neither parameters nor other interfaces that it extends. -/
def Document.interface? (file : Document) : Option Interface :=
  if file.root.hasFault then none
  else
    match file.root.children with
    | [statement] =>
      match statement.kind, statement.children with
      | .exportStatement, [_, declared] =>
        match declared.kind, declared.constructs with
        | .interfaceDeclaration, [name, body] =>
          (body.constructs.mapM (Node.member? file.text)).map fun members =>
            { name := name.chars file.text, members }
        | _, _ => none
      | _, _ => none
    | _ => none

end ModelGrid.Syntax

namespace ModelGrid.Component

open Syntax Grammar Stretch Model

namespace Layout

/-- The word of the type that a property has on the wire. -/
def wireWord : DataType → Keyword
  | .number => .numberWord
  | .boolean => .booleanWord
  | .string | .dateTime => .stringWord

theorem wireWord_mem_typeWords (dataType : DataType) : wireWord dataType ∈ typeWords := by
  cases dataType <;> decide

/-- The line of a member. -/
def interfaceField (p : Property) : List Stretch :=
  [gap "\n\t", anyWord p.name, mark .colon ":", gap " ",
   key (wireWord p.dataType) p.dataType.wireName]

/-- The lines of the members. -/
def interfaceFields (ps : List Property) : List Stretch := ps.flatMap interfaceField

/-- The interface up to its opening brace. -/
def interfaceFront (model : String) : List Stretch :=
  [key .exportWord "export", gap " ", key .interfaceWord "interface", gap " ", anyWord model, gap " ",
   mark .openBrace "\x7b"]

/-- The end of the interface. -/
def interfaceBack : List Stretch := [gap "\n", mark .closeBrace "\x7d"]

theorem text_interfaceField (p : Property) :
    text (interfaceField p) = "\n\t".toList ++ (Contribution.interfaceField p).toList := by
  simp [interfaceField, Contribution.interfaceField, key, anyWord, Stretch.mark, gap, chars]

theorem text_interface (model : String) (ps : List Property) :
    text (interfaceFront model ++ (interfaceFields ps ++ interfaceBack)) =
      (Contribution.interfaceDeclaration model ps).toList := by
  have fields : text (interfaceFields ps) =
      ps.flatMap fun p => '\n' :: ("\t".toList ++ (Contribution.interfaceField p).toList) := by
    rw [interfaceFields, text, List.flatMap_assoc]
    exact List.flatMap_congr fun p _ => text_interfaceField p
  rw [Contribution.toList_interfaceDeclaration, Contribution.block, text_append, text_append, fields]
  simp [interfaceFront, interfaceBack, key, anyWord, Stretch.mark, gap, chars]

/-- Behind a member stands a token that does not go on with it: the next name, whatever word it is,
or the closing brace. -/
theorem exists_tokensFrom_fields (ps : List Property) (position : Nat) :
    ∃ s later, tokensFrom position false (interfaceFields ps ++ interfaceBack) = s :: later ∧
      EndsMember s := by
  cases ps with
  | nil => exact ⟨_, _, rfl, .of_mark rfl, rfl, by simp⟩
  | cons p ps => exact ⟨_, _, rfl, .of_line rfl rfl, rfl, by simp⟩

/-- The tokens of a member, and those behind it. -/
theorem exists_tokensFrom_field (p : Property) (position : Nat) (layout : List Stretch) :
    ∃ k c u,
      tokensFrom position false (interfaceField p ++ layout) =
          k :: c :: u :: tokensFrom (position + Text.size (text (interfaceField p))) false layout ∧
        k.isWord = true ∧ c.kind = .mark .colon ∧ u.kind = .word (some (wireWord p.dataType)) :=
  ⟨_, _, _,
    tokensFrom_append_lexeme position false (interfaceField p).dropLast
      (.word (some (wireWord p.dataType))) p.dataType.wireName.toList layout,
    rfl, rfl, rfl⟩

/-- What the members say, one after another. -/
def Members (text : List Char) (ps : List Property) (nodes : List Node) : Prop :=
  List.Forall₂
    (fun p node => Node.member? text node = some (p.name.toList, p.dataType.wireName.toList) ∧
      node.kind = .propertySignature ∧ node.isExtra = false ∧ node.hasFault = false)
    ps nodes

/-- **Members one after another.**  Whatever stands in front of them, the members are read up to the
closing brace, and each says the name and the type of its property. -/
theorem reads_fields (n : Nat) (ps : List Property) (front : List Stretch) :
    ∃ nodes b,
      Phrase.Reads (interfaceItem (n + 2))
          (tokensFrom (Text.size (text front)) false (interfaceFields ps ++ interfaceBack)) nodes
          [b] ∧
        b.kind = .mark .closeBrace ∧
        Members (text (front ++ (interfaceFields ps ++ interfaceBack))) ps nodes := by
  induction ps generalizing front with
  | nil => exact ⟨[], _, .nil _, rfl, .nil⟩
  | cons p ps ih =>
    obtain ⟨nodes, b, reads, brace, members⟩ := ih (front ++ interfaceField p)
    let layout := interfaceFields ps ++ interfaceBack
    have whole : interfaceFields (p :: ps) ++ interfaceBack = interfaceField p ++ layout := by
      simp [interfaceFields, layout]
    obtain ⟨s, later, head, ends⟩ :=
      exists_tokensFrom_fields ps (Text.size (text front) + Text.size (text (interfaceField p)))
    rw [text_append, Text.size_append] at reads
    rw [List.append_assoc] at members
    obtain ⟨k, c, u, cut, key, colon, type⟩ :=
      exists_tokensFrom_field p (Text.size (text front)) layout
    have covers := slice_tokensFrom front (interfaceField p ++ layout) false
    rw [cut] at covers
    obtain ⟨name_chars, covers⟩ := List.forall₂_cons.mp covers
    obtain ⟨-, covers⟩ := List.forall₂_cons.mp covers
    obtain ⟨type_chars, -⟩ := List.forall₂_cons.mp covers
    rw [whole, cut]
    rw [head] at reads ⊢
    have one := reads_member n later key colon type (wireWord_mem_typeWords p.dataType) ends
    have said : Node.member? (text (front ++ (interfaceField p ++ layout))) (memberNode k c u) =
        some (p.name.toList, p.dataType.wireName.toList) :=
      congrArg some (Prod.ext name_chars type_chars)
    exact ⟨_, b, one.trans reads, brace, .cons ⟨said, rfl, rfl, rfl⟩ members⟩

theorem wireWord_mem_spellings (dataType : DataType) :
    (wireWord dataType, dataType.wireName) ∈ Keyword.spellings := by
  cases dataType <;> simp [wireWord, DataType.wireName, DataType.name, Keyword.spellings]

/-- The members scan if their names are words. -/
theorem scans_fields {ps : List Property} (names : ∀ p ∈ ps, Lexeme.IsWord p.name.toList) :
    Scans (interfaceFields ps ++ interfaceBack) := by
  induction ps with
  | nil =>
    exact scans_gap (List.all_eq_true.mp (by decide)) (scans_shortMark (by decide) trivial)
  | cons p ps ih =>
    obtain ⟨spaces, rest, head, stops⟩ : ∃ spaces rest,
        interfaceFields ps ++ interfaceBack = gap spaces :: rest ∧ (gap spaces).StopsWord := by
      cases ps with
      | nil => exact ⟨_, _, rfl, by decide⟩
      | cons q qs => exact ⟨_, _, rfl, by decide⟩
    have later := ih fun q mem => names q (.tail _ mem)
    have wire : Lexeme.IsWord p.dataType.wireName.toList := by
      cases p.dataType <;> decide
    show Scans (interfaceField p ++ (interfaceFields ps ++ interfaceBack))
    rw [head] at later ⊢
    refine scans_gap (List.all_eq_true.mp (by decide)) ?_
    refine scans_anyWord (names p List.mem_cons_self) (by decide) ?_
    refine scans_shortMark (by decide) (scans_gap (List.all_eq_true.mp (by decide)) ?_)
    exact scans_key (wireWord_mem_spellings p.dataType) wire stops later

/-- The interface scans if its name and those of its members are words. -/
theorem scans_interface {model : String} (name : Lexeme.IsWord model.toList) {ps : List Property}
    (names : ∀ p ∈ ps, Lexeme.IsWord p.name.toList) :
    Scans (interfaceFront model ++ (interfaceFields ps ++ interfaceBack)) := by
  have space (rest : List Stretch) (later : Scans rest) : Scans (gap " " :: rest) :=
    scans_gap (List.all_eq_true.mp (by decide)) later
  refine scans_key (by simp [Keyword.spellings]) (by decide) (by decide) (space _ ?_)
  refine scans_key (by simp [Keyword.spellings]) (by decide) (by decide) (space _ ?_)
  refine scans_anyWord name (by decide) (space _ ?_)
  exact scans_shortMark (by decide) (scans_fields names)

/-- A node of a member. -/
theorem Members.hasFaultIn {cs : List Char} {ps : List Property} {nodes : List Node}
    (members : Members cs ps nodes) (last : Node) (sound : last.hasFault = false) :
    Node.hasFaultIn (nodes ++ [last]) = false := by
  induction members with
  | nil => simp [Node.hasFaultIn, sound]
  | cons one _ ih =>
    rw [List.cons_append, Node.hasFaultIn, one.2.2.2, ih]
    rfl

theorem Members.filter_eq {cs : List Char} {ps : List Property} {nodes : List Node}
    (members : Members cs ps nodes) :
    nodes.filter (fun child => child.kind.isNamed && !child.isExtra) = nodes := by
  induction members with
  | nil => rfl
  | cons one _ ih =>
    rw [List.filter_cons_of_pos (by rw [one.2.1, one.2.2.1]; rfl), ih]

theorem Members.mapM_eq {cs : List Char} {ps : List Property} {nodes : List Node}
    (members : Members cs ps nodes) :
    nodes.mapM (Node.member? cs) =
      some (ps.map fun p => (p.name.toList, p.dataType.wireName.toList)) := by
  induction members with
  | nil => rfl
  | cons one _ ih =>
    rw [List.mapM_cons, one.1, ih]
    rfl

/-- The tokens of the interface in front of its members. -/
theorem exists_tokensFrom_front (model : String) (layout : List Stretch) :
    ∃ e i x o,
      tokensFrom 0 false (interfaceFront model ++ layout) =
          e :: i :: x :: o :: tokensFrom (Text.size (text (interfaceFront model))) false layout ∧
        e.kind = .word (some .exportWord) ∧ i.kind = .word (some .interfaceWord) ∧
        x.kind = .word (Keyword.ofChars? model.toList) ∧ x.afterBreak = false ∧
        o.kind = .mark .openBrace := by
  have cut := tokensFrom_append_lexeme 0 false (interfaceFront model).dropLast (.mark .openBrace)
    "\x7b".toList layout
  rw [Nat.zero_add] at cut
  exact ⟨_, _, _, _, cut, rfl, rfl, rfl, rfl, rfl⟩

/-- What a file says whose one statement is such an interface. -/
theorem interface?_interfaceNode {cs : List Char} {ps : List Property} {nodes : List Node}
    (members : Members cs ps nodes) (e i x o b : Token) (stop : Nat) :
    Document.interface?
        ⟨cs, .node { kind := .program, start := 0, stop } [interfaceNode e i x o nodes b]⟩ =
      some
        { name := Text.slice cs x.start x.stop
          members := ps.map fun p => (p.name.toList, p.dataType.wireName.toList) } := by
  have sound :
      (Node.node { kind := .program, start := 0, stop } [interfaceNode e i x o nodes b]).hasFault =
        false := by
    have inner := members.hasFaultIn (.leaf .punctuation b.start b.stop) rfl
    rw [Node.leaf] at inner
    simp [interfaceNode, Node.branch, Node.leaf, Node.hasFault, Node.hasFaultIn, Node.isFault,
      Node.kind, Node.label, inner]
  have constructs :
      (Node.branch .interfaceBody
        (.leaf .openBrace o.start o.stop :: nodes ++ [.leaf .punctuation b.start b.stop])).constructs =
        nodes := by
    show (Node.leaf .openBrace o.start o.stop :: nodes ++ _).filter _ = nodes
    rw [List.cons_append, List.filter_cons_of_neg Bool.false_ne_true, List.filter_append, members.filter_eq]
    exact List.append_nil nodes
  rw [Document.interface?, if_neg (by simp [sound])]
  show ((Node.constructs _).mapM (Node.member? cs)).map _ = _
  rw [constructs, members.mapM_eq]
  rfl

end Layout

/-- **An interface is one declaration.**  If the name of the model is an identifier and the names of
the properties are words, reserved ones included, then the declaration reads as one exported interface
of the model's name, which has the properties under their names and types on the wire, in order. -/
theorem interface?_interfaceDeclaration {model : String} {ps : List Property}
    (identifier : Lexeme.IsIdentifier model.toList)
    (names : ∀ p ∈ ps, Lexeme.IsWord p.name.toList) :
    (Document.parse (Contribution.interfaceDeclaration model ps)).interface? =
      some
        { name := model.toList
          members := ps.map fun p => (p.name.toList, p.dataType.wireName.toList) } := by
  let front := Layout.interfaceFront model
  let layout := Layout.interfaceFields ps ++ Layout.interfaceBack
  have scan : Token.scan (Contribution.interfaceDeclaration model ps).toList =
      (tokensFrom 0 false (front ++ layout), []) := by
    rw [← Layout.text_interface]
    exact scan_of_scans (Layout.scans_interface identifier.1 names) rfl
  obtain ⟨e, i, x, o, cut, export', interface', kind, line, opens⟩ :=
    Layout.exists_tokensFrom_front model layout
  have name : x.isIdentifier = true := by
    cases word : Keyword.ofChars? model.toList with
    | none => simp [Token.isIdentifier, kind, word]
    | some keyword => simp [Token.isIdentifier, kind, word, identifier.2 keyword word]
  let tokens := tokensFrom (Text.size (text front)) false layout
  obtain ⟨n, fuel⟩ : ∃ n, goalsPerToken * ((e :: i :: x :: o :: tokens).length + 1) = n + 3 :=
    ⟨_, (Nat.sub_add_cancel (by simp [goalsPerToken]; omega)).symm⟩
  obtain ⟨nodes, b, reads, closes, members⟩ := Layout.reads_fields n ps front
  have read := read_interface (n + 2) export' interface' name line opens reads closes
  have program :
      program (e :: i :: x :: o :: tokens) = .branch .program [interfaceNode e i x o nodes b] :=
    program_of_statements (.cons (fuel ▸ read) (by simp) .nil) (by simp [export'])
  have covers := slice_tokensFrom [] (front ++ layout) false
  rw [text_nil, Text.size_nil, List.nil_append, cut] at covers
  obtain ⟨-, covers⟩ := List.forall₂_cons.mp covers
  obtain ⟨-, covers⟩ := List.forall₂_cons.mp covers
  obtain ⟨name_chars, -⟩ := List.forall₂_cons.mp covers
  rw [Document.parse_of_scan scan, cut, program, ← Layout.text_interface]
  have reading :=
    Layout.interface?_interfaceNode members e i x o b (Text.size (text (front ++ layout)))
  rw [name_chars] at reading
  exact reading

/-- Lowercase letters are no digits. -/
theorem isDigit_of_isLowercase {c : Char} (lowercase : Text.isLowercase c = true) :
    c.isDigit = false := by
  rw [Bool.eq_false_iff]
  intro digit
  have low := Naming.isDigit_iff.mp digit
  rw [Text.isLowercase, if_pos (by omega)] at lowercase
  have high := Naming.isLower_iff.mp lowercase
  omega

/-- **The interface of a source.**  If the characters of the names of a source's properties may stand in
a name, then its interface is one exported interface under the model's name, with a member for each
property. -/
theorem interface?_of_readSource {source : String} {ps : List Property}
    (accepted : readSource source = .ok ps) {model : String}
    (identifier : Lexeme.IsIdentifier model.toList)
    (plain : ∀ p ∈ ps, ∀ c ∈ p.name.toList, isIdentifierPart c = true) :
    (Document.parse (Contribution.interfaceDeclaration model ps)).interface? =
      some
        { name := model.toList
          members := ps.map fun p => (p.name.toList, p.dataType.wireName.toList) } := by
  refine interface?_interfaceDeclaration identifier fun p mem => ⟨?_, plain p mem⟩
  obtain ⟨⟨⟨c, cs, name, lowercase⟩, -⟩, -⟩ := (forall₂_declaredAt_of_readSource accepted).2 p mem
  exact ⟨c, by rw [name]; rfl, isDigit_of_isLowercase lowercase⟩

/-- Names that are words of the language behind the types of the members above them, and one that has a
letter of two bytes. -/
theorem interface?_of_readSource_keywords :
    let source := "[Column(\"A\")]\npublic int? Extends \x7b get; set; \x7d\n" ++
      "public DateTime New \x7b get; set; \x7d\npublic bool Éa \x7b get; set; \x7d\n"
    let ps : List Property :=
      [⟨"extends", .number, "A"⟩, ⟨"new", .dateTime, "A"⟩, ⟨"éa", .boolean, "A"⟩]
    readSource source = .ok ps ∧ Lexeme.IsIdentifier "type".toList ∧
      (∀ p ∈ ps, ∀ c ∈ p.name.toList, isIdentifierPart c = true) ∧
      (Document.parse (Contribution.interfaceDeclaration "type" ps)).interface? =
        some
          { name := "type".toList
            members := ps.map fun p => (p.name.toList, p.dataType.wireName.toList) } := by
  intro source ps
  have accepted : readSource source = .ok ps := by decide +kernel
  have identifier : Lexeme.IsIdentifier "type".toList := by decide +kernel
  have all_plain : (ps.all fun p => p.name.toList.all isIdentifierPart) = true := by decide
  have plain : ∀ p ∈ ps, ∀ c ∈ p.name.toList, isIdentifierPart c = true :=
    fun p mem => List.all_eq_true.mp (List.all_eq_true.mp all_plain p mem)
  exact ⟨accepted, identifier, plain, interface?_of_readSource accepted identifier plain⟩

/-- A field without accessors takes its semicolon into the name, which is then no key of a member. -/
theorem interface?_ne_of_semicolon :
    readSource "[Column(\"A\")]\npublic int Age;" = .ok [⟨"age;", .number, "A"⟩] ∧
      Lexeme.IsIdentifier "Person".toList ∧
      (Document.parse
          (Contribution.interfaceDeclaration "Person" [⟨"age;", .number, "A"⟩])).interface? ≠
        some { name := "Person".toList, members := [("age;".toList, "number".toList)] } := by
  decide +kernel

end ModelGrid.Component
