import SwiftTree.Token.Kind
import SwiftTree.Trivia

/-!
# Tokens

A token is its own text together with the trivia before and after it. The width of a token counts
all three, so the tokens of a source text tile it.
-/

namespace SwiftTree

/-- A token with the trivia attached to it. -/
structure Token where
  kind : TokenKind
  text : String
  leading : Trivia
  trailing : Trivia
  deriving DecidableEq, Repr

namespace Token

def isKeyword (token : Token) (word : String) : Bool :=
  token.kind == .keyword && token.text == word

/-- Whether the token marks the end of the source text. -/
def isEnd (token : Token) : Bool :=
  token.kind == .endOfFile

def render (token : Token) : String :=
  token.leading.render ++ (token.text ++ token.trailing.render)

def width (token : Token) : Nat :=
  token.leading.width + (token.text.utf8ByteSize + token.trailing.width)

@[simp] theorem utf8ByteSize_render (token : Token) : token.render.utf8ByteSize = token.width := by
  simp [render, width]

end Token

end SwiftTree
