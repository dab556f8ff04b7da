import SwiftTree.Token.Basic

/-!
# Tests on the tokens ahead

A rule of the grammar decides what to do next by looking at the token it has taken last and at the
tokens that follow. A test sees the kinds and texts of these tokens, whether a line break stands in
front of the current token, and whether it is glued to the one before. It sees nothing else of the
trivia, so the layout of a text matters to the grammar only through these two facts.
-/

namespace SwiftTree.Grammar

/-- The kind of the current token. Where no token is left, the end has been reached. -/
def currentKind (rest : List Token) : TokenKind :=
  (rest.head?.map Token.kind).getD .endOfFile

/-- Whether the current token is the first on its line. -/
def atLineStart (last : Option Token) (rest : List Token) : Bool :=
  match last, rest with
  | some before, current :: _ => current.leading.breaksLine || before.trailing.breaksLine
  | none, _ => true
  | _, [] => false

/-- Whether nothing stands between the current token and the one before it. -/
def isGlued (last : Option Token) (rest : List Token) : Bool :=
  match last, rest with
  | some before, current :: _ => current.leading.isEmpty && before.trailing.isEmpty
  | _, _ => false

/-- Whether the tokens after the first `skipped` begin a declaration: any number of modifiers, each
with an optional argument in parentheses, and then a keyword that introduces one. Some declarations
stand among members only. -/
def startsDeclarationAfter (amongMembers : Bool) : Nat → List Token → Bool
  | _, [] => false
  | skipped + 1, _ :: rest => startsDeclarationAfter amongMembers skipped rest
  | 0, token :: rest =>
    match token.kind with
    | .atSign => true
    | .keyword =>
      if ["case", "init", "deinit", "subscript", "associatedtype"].contains token.text then
        amongMembers
      else if token.text == "class" && currentKind rest != .keyword then true
      else if isModifierKeyword token.text then
        startsDeclarationAfter amongMembers (if currentKind rest == .leftParen then 3 else 0) rest
      else isDeclarationKeyword token.text
    | _ => false

def startsDeclaration (amongMembers : Bool) (rest : List Token) : Bool :=
  startsDeclarationAfter amongMembers 0 rest

/-- What is seen after moving some tokens ahead. The last token is never passed. -/
def lookAhead : Nat → Option Token → List Token → Option Token × List Token
  | count + 1, _, token :: next :: later => lookAhead count (some token) (next :: later)
  | _, last, rest => (last, rest)

/-- A condition on the token taken last and the tokens that follow. -/
inductive Test
  /-- The current token has one of these kinds. -/
  | kindIn (kinds : List TokenKind)
  /-- The current token is one of these keywords. -/
  | keywordIn (words : List String)
  /-- The current token has this text. -/
  | text (content : String)
  /-- The token taken last has one of these kinds. -/
  | lastIn (kinds : List TokenKind)
  | lineStart
  | glued
  | declarationStart (amongMembers : Bool)
  /-- The test holds after moving some tokens ahead. -/
  | ahead (count : Nat) (test : Test)
  | not (test : Test)
  | and (first second : Test)
  | or (first second : Test)
  deriving Repr

namespace Test

def holds : Test → Option Token → List Token → Bool
  | kindIn kinds, _, rest => kinds.contains (currentKind rest)
  | keywordIn words, _, rest =>
    rest.head?.any fun token => token.kind == .keyword && words.contains token.text
  | text content, _, rest => rest.head?.any fun token => token.text == content
  | lastIn kinds, last, _ => last.any fun token => kinds.contains token.kind
  | lineStart, last, rest => atLineStart last rest
  | glued, last, rest => isGlued last rest
  | declarationStart amongMembers, _, rest => startsDeclaration amongMembers rest
  | ahead count test, last, rest =>
    let (last, rest) := lookAhead count last rest
    test.holds last rest
  | not test, last, rest => !test.holds last rest
  | and first second, last, rest => first.holds last rest && second.holds last rest
  | or first second, last, rest => first.holds last rest || second.holds last rest

instance : AndOp Test := ⟨Test.and⟩

instance : OrOp Test := ⟨Test.or⟩

instance : Complement Test := ⟨Test.not⟩

@[simp] theorem holds_and (first second : Test) (last : Option Token) (rest : List Token) :
    (first &&& second).holds last rest = (first.holds last rest && second.holds last rest) := rfl

@[simp] theorem holds_or (first second : Test) (last : Option Token) (rest : List Token) :
    (first ||| second).holds last rest = (first.holds last rest || second.holds last rest) := rfl

@[simp] theorem holds_not (test : Test) (last : Option Token) (rest : List Token) :
    (~~~test).holds last rest = !test.holds last rest := rfl

def kind (kind : TokenKind) : Test :=
  kindIn [kind]

def keyword (word : String) : Test :=
  keywordIn [word]

@[simp] theorem holds_kind (sought : TokenKind) (last : Option Token) (rest : List Token) :
    (kind sought).holds last rest = true ↔ currentKind rest = sought := by
  simp [kind, holds]

end Test

end SwiftTree.Grammar
