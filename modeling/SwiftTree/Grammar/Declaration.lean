import SwiftTree.Grammar.Expression
import SwiftTree.Grammar.Type

/-!
# Declarations

A declaration begins with attributes and modifiers, and what it declares is known only after them.
So the node is begun as one that holds unexpected code and takes its kind from the keyword.
-/

namespace SwiftTree.Grammar.Rule

/-- Modifiers, each with an optional argument in parentheses. -/
def modifiers : Rule Goal :=
  node .declModifierList <| while_ .modifier <| steps [
    shift,
    when (.kind .leftParen &&& .ahead 1 (.kind .identifier) &&& .ahead 2 (.kind .rightParen)) <|
      steps [shift, shift, shift]]

def genericParameters : Rule Goal :=
  when (.kind .leftAngle) (node .genericParameterClause (angles "generic parameter clause"))

/-- The types that a type inherits from, separated by commas. -/
def inheritance : Rule Goal :=
  when (.kind .colon) <| node .inheritanceClause <| steps [
    shift,
    loop <| choose .typeStart
      (steps [typeRun, when (.kind .comma) (steps [shift, again])])
      (requiredType "inheritance clause")]

/-- Generic requirements. They end with their line unless it ends with a comma. -/
def requirements : Rule Goal :=
  when (.keyword "where") <| node .genericWhereClause <| steps [
    shift,
    while_ (~~~.kindIn [.leftBrace, .rightBrace, .semicolon, .equal, .endOfFile] &&&
        (~~~.lineStart ||| .lastIn [.comma])) <|
      tokenOrGroup "where clause"]

def initializerClause : Rule Goal :=
  when (.kind .equal) <| node .initializerClause <| steps [
    shift,
    expression { comma := true } <|
      missing "expected expression in initializer" "insert expression" " <#expression#>"]

/-- A type that stands after an equals sign. -/
def assignedType (place : String) : Rule Goal :=
  node .initializerClause (steps [shift, requiredType place])

def accessorBlock : Rule Goal :=
  block .accessorBlock .codeBlock .accessorBlock

def parameter : Rule Goal :=
  node .functionParameter <| steps [
    when (.kind .atSign) attributes,
    when .word shift,
    when .word shift,
    choose (.kind .colon) (steps [shift, requiredType "parameter"]) <|
      report {
        message := "expected ':' and type in parameter"
        remedies := [.insert "insert ':'" ": ", .insert "insert type" "<#type#>"] },
    when (.operator "...") shift,
    initializerClause,
    when (.kind .comma) shift]

def parameters : Rule Goal :=
  while_ (~~~.kindIn [.rightParen, .leftBrace, .rightBrace, .endOfFile]) <|
    choose (.kindIn [.identifier, .keyword, .atSign]) parameter <| steps [
      recover { stop := .kindIn [.comma, .leftBrace], phrase := "in parameter clause" },
      when (.kind .comma) shift]

/-- Parameters, effects and result of a function. -/
def functionSignature : Rule Goal :=
  node .functionSignature <| steps [
    node .parameterClause (delimited .paren "parameter clause" .parameters),
    while_ .effect shift,
    when (.kind .arrow) <| node .returnClause <| steps [
      shift,
      choose .typeStart typeRun <|
        missing "expected return type in function signature" "insert return type" " <#type#>"]]

/-- The signature of a function, or another rule if there is none. -/
def signatureIn (place : String) (otherwise : Rule Goal) : Rule Goal :=
  choose (.kind .leftParen) functionSignature <| steps [
    missing ("expected parameter clause in " ++ place) "insert parameter clause" "()",
    otherwise]

def declaredName (kind : NodeKind) : Rule Goal :=
  choose .name shift <|
  missing ("expected name in " ++ kind.description) "insert name" " <#name#>"

def missingIdentifier (place : String) : Rule Goal :=
  missing ("expected identifier in " ++ place) "insert identifier" " <#identifier#>"

def importDeclaration : Rule Goal :=
  let path : Test := ~~~.lineStart &&& .kindIn [.identifier, .keyword, .period]
  steps [
    become .importDecl,
    shift,
    when (.keywordIn ["struct", "class", "enum", "protocol", "func", "var", "let", "typealias"])
      shift,
    choose path (while_ path shift) <|
      missing "expected module name in import declaration" "insert module name" " <#module#>"]

/-- A declaration of a type, or of an extension of one. -/
def typeDeclaration (kind : NodeKind) : Rule Goal :=
  steps [
    become kind,
    shift,
    if kind = .extensionDecl then requiredType "extension" else declaredName kind,
    genericParameters,
    inheritance,
    requirements,
    choose (.kind .leftBrace) (block .memberBlock .members kind) <|
      missing ("expected member block in " ++ kind.description) "insert member block" " \x7b\x7d"]

def functionDeclaration : Rule Goal :=
  steps [
    become .functionDecl,
    shift,
    choose (.kindIn [.identifier, .operator] &&& ~~~.lineStart) shift <|
      missingIdentifier "function",
    genericParameters,
    signatureIn "function signature" <|
      recover { stop := .kind .leftBrace ||| .lineStart, phrase := "in function", forced := false },
    requirements,
    when (.kind .leftBrace) (codeBlock .functionDecl)]

def initializerDeclaration : Rule Goal :=
  steps [
    become .initializerDecl,
    shift,
    when .optionalMark shift,
    genericParameters,
    signatureIn "initializer" skip,
    requirements,
    when (.kind .leftBrace) (codeBlock .initializerDecl)]

def deinitializerDeclaration : Rule Goal :=
  steps [
    become .deinitializerDecl,
    shift,
    when (.kind .leftBrace) (codeBlock .deinitializerDecl)]

def subscriptDeclaration : Rule Goal :=
  steps [
    become .subscriptDecl,
    shift,
    genericParameters,
    signatureIn "subscript" skip,
    requirements,
    when (.kind .leftBrace) accessorBlock]

/-- A declaration of variables or constants, separated by commas. -/
def variableDeclaration : Rule Goal :=
  steps [
    become .variableDecl,
    shift,
    loop <| node .patternBinding <| steps [
      choose .name shift <|
        choose (.kind .leftParen &&& ~~~.lineStart) (parens "pattern") <|
        missing "expected pattern in variable" "insert pattern" " <#pattern#>",
      when (.kind .colon) <|
        node .typeAscription (steps [shift, requiredType "type annotation"]),
      initializerClause,
      when (.kind .leftBrace &&& ~~~.lineStart) accessorBlock,
      when (.kind .comma) (steps [shift, again])]]

/-- A declaration of the cases of an enumeration, separated by commas. -/
def enumCaseDeclaration : Rule Goal :=
  steps [
    become .enumCaseDecl,
    shift,
    loop <| node .enumCaseElement <| steps [
      choose .name shift (missingIdentifier "enum case"),
      when (.kind .leftParen) (node .parameterClause (parens "associated values")),
      initializerClause,
      when (.kind .comma) (steps [shift, again])]]

def typeAliasDeclaration : Rule Goal :=
  steps [
    become .typeAliasDecl,
    shift,
    declaredName .typeAliasDecl,
    genericParameters,
    choose (.kind .equal) (assignedType "typealias") <|
      missing "expected '=' in typealias" "insert '='" " = <#type#>",
    requirements]

def associatedTypeDeclaration : Rule Goal :=
  steps [
    become .associatedTypeDecl,
    shift,
    declaredName .associatedTypeDecl,
    inheritance,
    when (.kind .equal) (assignedType "associatedtype"),
    requirements]

def declaration : Rule Goal :=
  node .unexpectedNodes <| steps [
    when (.kind .atSign) attributes,
    when .modifier modifiers,
    dispatch [
      ("import", importDeclaration),
      ("struct", typeDeclaration .structDecl),
      ("class", typeDeclaration .classDecl),
      ("enum", typeDeclaration .enumDecl),
      ("protocol", typeDeclaration .protocolDecl),
      ("actor", typeDeclaration .actorDecl),
      ("extension", typeDeclaration .extensionDecl),
      ("func", functionDeclaration),
      ("init", initializerDeclaration),
      ("deinit", deinitializerDeclaration),
      ("subscript", subscriptDeclaration),
      ("let", variableDeclaration),
      ("var", variableDeclaration),
      ("case", enumCaseDeclaration),
      ("typealias", typeAliasDeclaration),
      ("associatedtype", associatedTypeDeclaration)] <|
    report { message := "expected declaration" }]

end SwiftTree.Grammar.Rule
