/-!
# Kinds of syntax nodes

The front end reports every node under one of these kinds.  What it cannot name
precisely is a keyword, punctuation, a literal, a type node or an expression.
-/

namespace ApiSurface

inductive NodeKind where
  | sourceFile
  | syntaxList
  | moduleBlock
  | variableStatement
  | variableDeclarationList
  | heritageClause
  | parameter
  | typeParameter
  | typeLiteral
  | typeReference
  | expressionWithTypeArguments
  | importType
  | qualifiedName
  | docComment
  | callSignature
  | classDeclaration
  | constructSignature
  | constructorMember
  | enumDeclaration
  | enumMember
  | functionDeclaration
  | getAccessor
  | indexSignature
  | interfaceDeclaration
  | methodDeclaration
  | methodSignature
  | moduleDeclaration
  | propertyDeclaration
  | propertySignature
  | setAccessor
  | typeAliasDeclaration
  | variableDeclaration
  | identifier
  | exportKeyword
  | defaultKeyword
  | declareKeyword
  | interfaceKeyword
  | classKeyword
  | enumKeyword
  | namespaceKeyword
  | moduleKeyword
  | typeKeyword
  | functionKeyword
  | importKeyword
  | constKeyword
  | letKeyword
  | varKeyword
  | staticKeyword
  | privateKeyword
  | protectedKeyword
  | publicKeyword
  | readonlyKeyword
  | abstractKeyword
  | lessThanToken
  | greaterThanToken
  | commaToken
  | dotToken
  | openBraceToken
  | closeBraceToken
  | openParenToken
  | closeParenToken
  | colonToken
  | semicolonToken
  | equalsToken
  | keyword
  | punctuation
  | literal
  | typeNode
  | expression
  deriving DecidableEq, Repr

namespace NodeKind

def name : NodeKind → String
  | .sourceFile => "SourceFile"
  | .syntaxList => "SyntaxList"
  | .moduleBlock => "ModuleBlock"
  | .variableStatement => "VariableStatement"
  | .variableDeclarationList => "VariableDeclarationList"
  | .heritageClause => "HeritageClause"
  | .parameter => "Parameter"
  | .typeParameter => "TypeParameter"
  | .typeLiteral => "TypeLiteral"
  | .typeReference => "TypeReference"
  | .expressionWithTypeArguments => "ExpressionWithTypeArguments"
  | .importType => "ImportType"
  | .qualifiedName => "QualifiedName"
  | .docComment => "JSDocComment"
  | .callSignature => "CallSignature"
  | .classDeclaration => "ClassDeclaration"
  | .constructSignature => "ConstructSignature"
  | .constructorMember => "Constructor"
  | .enumDeclaration => "EnumDeclaration"
  | .enumMember => "EnumMember"
  | .functionDeclaration => "FunctionDeclaration"
  | .getAccessor => "GetAccessor"
  | .indexSignature => "IndexSignature"
  | .interfaceDeclaration => "InterfaceDeclaration"
  | .methodDeclaration => "MethodDeclaration"
  | .methodSignature => "MethodSignature"
  | .moduleDeclaration => "ModuleDeclaration"
  | .propertyDeclaration => "PropertyDeclaration"
  | .propertySignature => "PropertySignature"
  | .setAccessor => "SetAccessor"
  | .typeAliasDeclaration => "TypeAliasDeclaration"
  | .variableDeclaration => "VariableDeclaration"
  | .identifier => "Identifier"
  | .exportKeyword => "ExportKeyword"
  | .defaultKeyword => "DefaultKeyword"
  | .declareKeyword => "DeclareKeyword"
  | .interfaceKeyword => "InterfaceKeyword"
  | .classKeyword => "ClassKeyword"
  | .enumKeyword => "EnumKeyword"
  | .namespaceKeyword => "NamespaceKeyword"
  | .moduleKeyword => "ModuleKeyword"
  | .typeKeyword => "TypeKeyword"
  | .functionKeyword => "FunctionKeyword"
  | .importKeyword => "ImportKeyword"
  | .constKeyword => "ConstKeyword"
  | .letKeyword => "LetKeyword"
  | .varKeyword => "VarKeyword"
  | .staticKeyword => "StaticKeyword"
  | .privateKeyword => "PrivateKeyword"
  | .protectedKeyword => "ProtectedKeyword"
  | .publicKeyword => "PublicKeyword"
  | .readonlyKeyword => "ReadonlyKeyword"
  | .abstractKeyword => "AbstractKeyword"
  | .lessThanToken => "LessThanToken"
  | .greaterThanToken => "GreaterThanToken"
  | .commaToken => "CommaToken"
  | .dotToken => "DotToken"
  | .openBraceToken => "OpenBraceToken"
  | .closeBraceToken => "CloseBraceToken"
  | .openParenToken => "OpenParenToken"
  | .closeParenToken => "CloseParenToken"
  | .colonToken => "ColonToken"
  | .semicolonToken => "SemicolonToken"
  | .equalsToken => "EqualsToken"
  | .keyword => "Keyword"
  | .punctuation => "Punctuation"
  | .literal => "Literal"
  | .typeNode => "TypeNode"
  | .expression => "Expression"

def all : List NodeKind := [
  .sourceFile, .syntaxList, .moduleBlock, .variableStatement,
    .variableDeclarationList, .heritageClause, .parameter, .typeParameter,
    .typeLiteral, .typeReference, .expressionWithTypeArguments, .importType,
    .qualifiedName, .docComment, .callSignature, .classDeclaration,
    .constructSignature, .constructorMember, .enumDeclaration, .enumMember,
    .functionDeclaration, .getAccessor, .indexSignature, .interfaceDeclaration,
    .methodDeclaration, .methodSignature, .moduleDeclaration, .propertyDeclaration,
    .propertySignature, .setAccessor, .typeAliasDeclaration, .variableDeclaration,
    .identifier, .exportKeyword, .defaultKeyword, .declareKeyword,
    .interfaceKeyword, .classKeyword, .enumKeyword, .namespaceKeyword,
    .moduleKeyword, .typeKeyword, .functionKeyword, .importKeyword, .constKeyword,
    .letKeyword, .varKeyword, .staticKeyword, .privateKeyword, .protectedKeyword,
    .publicKeyword, .readonlyKeyword, .abstractKeyword, .lessThanToken,
    .greaterThanToken, .commaToken, .dotToken, .openBraceToken, .closeBraceToken,
    .openParenToken, .closeParenToken, .colonToken, .semicolonToken, .equalsToken,
    .keyword, .punctuation, .literal, .typeNode, .expression]

def ofName? (name : String) : Option NodeKind :=
  all.find? fun kind => kind.name = name

def declarationKinds : List NodeKind := [
  .callSignature, .classDeclaration, .constructSignature, .constructorMember,
    .enumDeclaration, .enumMember, .functionDeclaration, .getAccessor,
    .indexSignature, .interfaceDeclaration, .methodDeclaration, .methodSignature,
    .moduleDeclaration, .propertyDeclaration, .propertySignature, .setAccessor,
    .typeAliasDeclaration, .variableDeclaration]

def isDeclaration (kind : NodeKind) : Bool := declarationKinds.contains kind

def isDeclarationKeyword : NodeKind → Bool
  | .interfaceKeyword | .classKeyword | .enumKeyword | .namespaceKeyword
    | .moduleKeyword | .typeKeyword
  | .functionKeyword => true
  | _ => false

def isPreapprovable : NodeKind → Bool
  | .classDeclaration | .enumDeclaration | .interfaceDeclaration
    | .moduleDeclaration => true
  | _ => false

def impliedName? : NodeKind → Option String
  | .constructorMember => some "__constructor"
  | .callSignature => some "__call"
  | .constructSignature => some "__new"
  | .indexSignature => some "__index"
  | _ => none

end NodeKind

end ApiSurface
