import ModelGrid.Proofs.Syntax.Reading

/-!
# Reading imports

How the grammar reads the forms of an import, wherever it stands and whatever follows its semicolon.

## Main results

* `importSpecifier_word`, `importSpecifier_renamed`: a name in braces.
* `importClause_default`, `importClause_all`, `importClause_of_namedImports`: what is imported.
* `read_bareImport`, `read_importStatement`, `read_typeImport`: the statements.
-/

namespace ModelGrid.Syntax.Grammar

open Phrase Rules

variable {t u : Token} {tokens rest : List Token} {nodes : List Node}

/-! ### Names in braces -/

/-- A word is an imported name, whatever it means elsewhere. -/
theorem importSpecifier_word (word : t.isWord = true)
    (ends : u.kind = .mark .comma ∨ u.kind = .mark .closeBrace) (rest : List Token) :
    importSpecifier (t :: u :: rest) =
      some
        ([.branch .importSpecifier
            [(Node.leaf .identifier t.start t.stop).withField .name]], u :: rest) := by
  obtain ⟨keyword, kind⟩ := Token.isWord_iff.mp word
  rcases ends with ends | ends <;>
    by_cases same : keyword = some .typeWord <;>
      simp [importSpecifier, exportName, Token.isWord, kind, ends, same]

/-- A word may go by another name here. -/
theorem importSpecifier_renamed (word : t.isWord = true) {as n : Token}
    (is_as : as.kind = .word (some .asWord)) (is_name : n.kind = .word none) (rest : List Token) :
    importSpecifier (t :: as :: n :: rest) =
      some
        ([.branch .importSpecifier
            [(Node.leaf .identifier t.start t.stop).withField .name,
             .leaf .keyword as.start as.stop, .leaf .identifier n.start n.stop]], rest) := by
  obtain ⟨keyword, kind⟩ := Token.isWord_iff.mp word
  by_cases same : keyword = some .typeWord <;>
    simp [importSpecifier, exportName, Token.isWord, Token.isIdentifier, kind, is_as, is_name, same]

/-- Names in braces. -/
theorem namedImports_of_reads {o c : Token} (opens : o.kind = .mark .openBrace)
    (names : Reads (first [mark .comma, importSpecifier]) tokens nodes (c :: rest))
    (closes : c.kind = .mark .closeBrace) :
    namedImports (o :: tokens) =
      some
        ([.branch .namedImports
            (.leaf .openBrace o.start o.stop :: nodes ++ [.leaf .punctuation c.start c.stop])],
         rest) := by
  have list := names.many_eq (by simp [importSpecifier, exportName, Token.isWord, closes])
  simp [namedImports, opens, list, closes, kindOfMark]

/-! ### Clauses -/

theorem importClause_of_namedImports {o : Token} {names : Node}
    (opens : o.kind = .mark .openBrace)
    (named : namedImports (o :: tokens) = some ([names], rest)) :
    importClause (o :: tokens) = some ([.branch .importClause [names]], rest) := by
  simp [importClause, opens, named]

theorem importClause_default (is_name : t.kind = .word none)
    (is_from : u.kind = .word (some .fromWord)) (rest : List Token) :
    importClause (t :: u :: rest) =
      some ([.branch .importClause [.leaf .identifier t.start t.stop]], u :: rest) := by
  simp [importClause, namedImports, Token.isIdentifier, is_name, is_from]

theorem importClause_all {star as n : Token} (is_star : star.kind = .mark .times)
    (is_as : as.kind = .word (some .asWord)) (is_name : n.kind = .word none) (rest : List Token) :
    importClause (star :: as :: n :: rest) =
      some
        ([.branch .importClause
            [.branch .namespaceImport
              [.leaf .punctuation star.start star.stop, .leaf .keyword as.start as.stop,
               .leaf .identifier n.start n.stop]]], rest) := by
  simp [importClause, Token.isIdentifier, is_star, is_as, is_name, kindOfMark]

/-! ### Statements -/

section Statements

variable {i o f p e : Token} {what : Node}

theorem importAttribute_semicolon (r : Rules) (ends : e.kind = .mark .semicolon)
    (rest : List Token) : r.importAttribute (e :: rest) = none := by
  cases breaks : e.afterBreak <;> simp [importAttribute, ends, breaks]

variable (n : Nat) (import' : i.kind = .word (some .importWord)) (path : p.kind = .string)
  (ends : e.kind = .mark .semicolon)

include import' path ends

/-- An import of nothing. -/
theorem read_bareImport (rest : List Token) :
    read (n + 1) .statement (i :: p :: e :: rest) =
      some
        ([.branch .importStatement
            [.leaf .keyword i.start i.stop,
             (Node.leaf .stringLiteral p.start p.stop).withField .source,
             .leaf .semicolon e.start e.stop]],
         rest) := by
  rw [read_statement_of_plain (by simp [BeginsPlainStatement, import'])]
  simp [decoratedStatement, importStatement, importAttribute_semicolon _ ends, import', path, ends]

/-- An import of what a clause says. -/
theorem read_importStatement (no_string : o.kind ≠ .string)
    (no_type : o.kind ≠ .word (some .typeWord))
    (clause : importClause (o :: tokens) = some ([what], f :: p :: e :: rest))
    (from' : f.kind = .word (some .fromWord)) :
    read (n + 1) .statement (i :: o :: tokens) =
      some
        ([.branch .importStatement
            [.leaf .keyword i.start i.stop, what, .leaf .keyword f.start f.stop,
             (Node.leaf .stringLiteral p.start p.stop).withField .source,
             .leaf .semicolon e.start e.stop]],
         rest) := by
  rw [read_statement_of_plain (by simp [BeginsPlainStatement, import'])]
  simp [decoratedStatement, importStatement, importAttribute_semicolon _ ends, import', clause,
    no_string, no_type, from', path, ends]

/-- An import of types. -/
theorem read_typeImport (type : t.kind = .word (some .typeWord))
    (clause : importClause tokens = some ([what], f :: p :: e :: rest))
    (from' : f.kind = .word (some .fromWord)) :
    read (n + 1) .statement (i :: t :: tokens) =
      some
        ([.branch .importStatement
            [.leaf .keyword i.start i.stop, .leaf .keyword t.start t.stop, what,
             .leaf .keyword f.start f.stop,
             (Node.leaf .stringLiteral p.start p.stop).withField .source,
             .leaf .semicolon e.start e.stop]],
         rest) := by
  rw [read_statement_of_plain (by simp [BeginsPlainStatement, import'])]
  simp [decoratedStatement, importStatement, importAttribute_semicolon _ ends, import', clause,
    type, from', path, ends]

end Statements

end ModelGrid.Syntax.Grammar
