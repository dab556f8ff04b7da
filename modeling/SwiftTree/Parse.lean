import SwiftTree.Grammar.Swift
import SwiftTree.Token.Lexer

/-!
# Parsing

A text is split into tokens, and the grammar arranges them in a tree. Parsing never fails: what
cannot be placed is kept in the tree, and diagnostics say what is wrong with the text.
-/

namespace SwiftTree

structure Document where
  tree : Tree
  diagnostics : List Diagnostic
  deriving DecidableEq, Repr

namespace Document

def hasErrors (document : Document) : Bool :=
  !document.diagnostics.isEmpty

end Document

/-- Parses a text. The tokens that the grammar leaves over come last in the tree; the token that
marks the end is among them. -/
def parse (identity text : String) : Document :=
  let tokens := lex text
  let parsed := Grammar.parseItems .topLevel .sourceFile tokens
  let tree : Tree :=
    ⟨identity, .composite .sourceFile (parsed.children.toList ++ parsed.rest.map Node.token)⟩
  ⟨tree, lexDiagnostics tokens ++ Grammar.Report.resolveAll tree parsed.reports.toList⟩

end SwiftTree
