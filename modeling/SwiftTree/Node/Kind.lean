/-!
# Kinds of nodes

The kinds of composite nodes, their grammatical categories, and the names under which they appear
in listings and in messages.
-/

namespace SwiftTree

inductive NodeKind
  | sourceFile
  | codeBlockItemList
  | codeBlock
  | memberBlock
  | memberBlockItemList
  | attributeList
  | declAttribute
  | declModifierList
  | importDecl
  | structDecl
  | classDecl
  | enumDecl
  | protocolDecl
  | extensionDecl
  | actorDecl
  | functionDecl
  | initializerDecl
  | deinitializerDecl
  | subscriptDecl
  | variableDecl
  | enumCaseDecl
  | enumCaseElement
  | typeAliasDecl
  | associatedTypeDecl
  | genericParameterClause
  | inheritanceClause
  | genericWhereClause
  | functionSignature
  | parameterClause
  | functionParameter
  | returnClause
  | patternBinding
  | typeAscription
  | initializerClause
  | accessorBlock
  | type
  | expr
  | closureExpr
  | conditionList
  | returnStmt
  | throwStmt
  | breakStmt
  | continueStmt
  | ifExpr
  | guardStmt
  | whileStmt
  | repeatStmt
  | forStmt
  | switchExpr
  | switchCaseList
  | switchCase
  | doStmt
  | deferStmt
  | expressionStmt
  | unexpectedNodes
  deriving DecidableEq, Repr

inductive NodeCategory
  | token
  | declaration
  | statement
  | expression
  | type
  | clause
  | list
  | unexpected
  | sourceFile
  deriving DecidableEq, Repr

namespace NodeCategory

def description : NodeCategory → String
  | token => "token"
  | declaration => "declaration"
  | statement => "statement"
  | expression => "expression"
  | type => "type"
  | clause => "clause"
  | list => "list"
  | unexpected => "unexpected code"
  | sourceFile => "source file"

/-- Whether nodes of the category may stand among the items of a code block. -/
def isCodeItem : NodeCategory → Bool
  | declaration | statement | expression => true
  | _ => false

end NodeCategory

namespace NodeKind

def name : NodeKind → String
  | sourceFile => "SourceFile"
  | codeBlockItemList => "CodeBlockItemList"
  | codeBlock => "CodeBlock"
  | memberBlock => "MemberBlock"
  | memberBlockItemList => "MemberBlockItemList"
  | attributeList => "AttributeList"
  | declAttribute => "Attribute"
  | declModifierList => "DeclModifierList"
  | importDecl => "ImportDecl"
  | structDecl => "StructDecl"
  | classDecl => "ClassDecl"
  | enumDecl => "EnumDecl"
  | protocolDecl => "ProtocolDecl"
  | extensionDecl => "ExtensionDecl"
  | actorDecl => "ActorDecl"
  | functionDecl => "FunctionDecl"
  | initializerDecl => "InitializerDecl"
  | deinitializerDecl => "DeinitializerDecl"
  | subscriptDecl => "SubscriptDecl"
  | variableDecl => "VariableDecl"
  | enumCaseDecl => "EnumCaseDecl"
  | enumCaseElement => "EnumCaseElement"
  | typeAliasDecl => "TypeAliasDecl"
  | associatedTypeDecl => "AssociatedTypeDecl"
  | genericParameterClause => "GenericParameterClause"
  | inheritanceClause => "InheritanceClause"
  | genericWhereClause => "GenericWhereClause"
  | functionSignature => "FunctionSignature"
  | parameterClause => "ParameterClause"
  | functionParameter => "FunctionParameter"
  | returnClause => "ReturnClause"
  | patternBinding => "PatternBinding"
  | typeAscription => "TypeAnnotation"
  | initializerClause => "InitializerClause"
  | accessorBlock => "AccessorBlock"
  | type => "Type"
  | expr => "Expr"
  | closureExpr => "ClosureExpr"
  | conditionList => "ConditionList"
  | returnStmt => "ReturnStmt"
  | throwStmt => "ThrowStmt"
  | breakStmt => "BreakStmt"
  | continueStmt => "ContinueStmt"
  | ifExpr => "IfExpr"
  | guardStmt => "GuardStmt"
  | whileStmt => "WhileStmt"
  | repeatStmt => "RepeatStmt"
  | forStmt => "ForStmt"
  | switchExpr => "SwitchExpr"
  | switchCaseList => "SwitchCaseList"
  | switchCase => "SwitchCase"
  | doStmt => "DoStmt"
  | deferStmt => "DeferStmt"
  | expressionStmt => "ExpressionStmt"
  | unexpectedNodes => "UnexpectedNodes"

def description : NodeKind → String
  | sourceFile => "source file"
  | codeBlockItemList => "code block item list"
  | codeBlock => "code block"
  | memberBlock => "member block"
  | memberBlockItemList => "member block item list"
  | attributeList => "attribute list"
  | declAttribute => "attribute"
  | declModifierList => "modifier list"
  | importDecl => "import"
  | structDecl => "struct"
  | classDecl => "class"
  | enumDecl => "enum"
  | protocolDecl => "protocol"
  | extensionDecl => "extension"
  | actorDecl => "actor"
  | functionDecl => "function"
  | initializerDecl => "initializer"
  | deinitializerDecl => "deinitializer"
  | subscriptDecl => "subscript"
  | variableDecl => "variable"
  | enumCaseDecl => "enum case"
  | enumCaseElement => "enum case element"
  | typeAliasDecl => "typealias"
  | associatedTypeDecl => "associatedtype"
  | genericParameterClause => "generic parameter clause"
  | inheritanceClause => "inheritance clause"
  | genericWhereClause => "where clause"
  | functionSignature => "function signature"
  | parameterClause => "parameter clause"
  | functionParameter => "parameter"
  | returnClause => "return clause"
  | patternBinding => "pattern binding"
  | typeAscription => "type annotation"
  | initializerClause => "initializer clause"
  | accessorBlock => "accessor block"
  | type => "type"
  | expr => "expression"
  | closureExpr => "closure"
  | conditionList => "condition list"
  | returnStmt => "'return' statement"
  | throwStmt => "'throw' statement"
  | breakStmt => "'break' statement"
  | continueStmt => "'continue' statement"
  | ifExpr => "'if' statement"
  | guardStmt => "'guard' statement"
  | whileStmt => "'while' statement"
  | repeatStmt => "'repeat' statement"
  | forStmt => "'for' statement"
  | switchExpr => "'switch' statement"
  | switchCaseList => "switch case list"
  | switchCase => "switch case"
  | doStmt => "'do' statement"
  | deferStmt => "'defer' statement"
  | expressionStmt => "expression statement"
  | unexpectedNodes => "unexpected code"

def category : NodeKind → NodeCategory
  | sourceFile => .sourceFile
  | codeBlockItemList | memberBlockItemList | switchCaseList | attributeList | declModifierList
  | conditionList => .list
  | importDecl | structDecl | classDecl | enumDecl | protocolDecl | extensionDecl | actorDecl
  | functionDecl | initializerDecl | deinitializerDecl | subscriptDecl | variableDecl
  | enumCaseDecl | typeAliasDecl | associatedTypeDecl => .declaration
  | returnStmt | throwStmt | breakStmt | continueStmt | guardStmt | whileStmt | repeatStmt
  | forStmt | doStmt | deferStmt | expressionStmt => .statement
  | expr | closureExpr | ifExpr | switchExpr => .expression
  | type => .type
  | unexpectedNodes => .unexpected
  | codeBlock | memberBlock | declAttribute | enumCaseElement | genericParameterClause
  | inheritanceClause | genericWhereClause | functionSignature | parameterClause
  | functionParameter | returnClause | patternBinding | typeAscription | initializerClause
  | accessorBlock | switchCase => .clause

def isDeclaration (kind : NodeKind) : Bool :=
  kind.category == .declaration

def all : List NodeKind :=
  [sourceFile, codeBlockItemList, codeBlock, memberBlock, memberBlockItemList, attributeList,
    declAttribute, declModifierList, importDecl, structDecl, classDecl, enumDecl, protocolDecl,
    extensionDecl, actorDecl, functionDecl, initializerDecl, deinitializerDecl, subscriptDecl,
    variableDecl, enumCaseDecl, enumCaseElement, typeAliasDecl, associatedTypeDecl,
    genericParameterClause, inheritanceClause, genericWhereClause, functionSignature,
    parameterClause, functionParameter, returnClause, patternBinding, typeAscription,
    initializerClause, accessorBlock, type, expr, closureExpr, conditionList, returnStmt,
    throwStmt, breakStmt, continueStmt, ifExpr, guardStmt, whileStmt, repeatStmt, forStmt,
    switchExpr, switchCaseList, switchCase, doStmt, deferStmt, expressionStmt, unexpectedNodes]

def ofName? (name : String) : Option NodeKind :=
  all.find? fun kind => kind.name == name

end NodeKind

end SwiftTree
