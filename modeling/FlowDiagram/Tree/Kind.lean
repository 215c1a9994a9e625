/-!
# Kinds of tree elements

Token kinds name the leaves of a tree, node kinds its inner nodes. Only few node kinds decide
anything about a diagram: those of loops and blocks (`Kind.construct`) and those of definitions
that own a return type (`Kind.ownsReturnType`). The kinds are numbered in the order of their
declaration, tokens first.
-/

namespace FlowDiagram.Tree

/-- The kind of a token or node. -/
inductive Kind where
  | whitespace
  | lineComment
  | identifier
  | integer
  | string
  | openBrace
  | closeBrace
  | openParen
  | closeParen
  | openBracket
  | closeBracket
  | semicolon
  | colon
  | comma
  | dot
  | equals
  | question
  | rightArrow
  | slash
  | less
  | greater
  | importKeyword
  | functionKeyword
  | resourceKeyword
  | remoteKeyword
  | isolatedKeyword
  | publicKeyword
  | finalKeyword
  | configurableKeyword
  | clientKeyword
  | classKeyword
  | serviceKeyword
  | returnsKeyword
  | returnKeyword
  | ifKeyword
  | elseKeyword
  | whileKeyword
  | foreachKeyword
  | inKeyword
  | matchKeyword
  | lockKeyword
  | transactionKeyword
  | doKeyword
  | onKeyword
  | failKeyword
  | breakKeyword
  | continueKeyword
  | panicKeyword
  | checkKeyword
  | newKeyword
  | trueKeyword
  | falseKeyword
  | sourceFile
  | importDeclaration
  | moduleVariableDeclaration
  | functionDefinition
  | classDefinition
  | serviceDeclaration
  | objectMethodDefinition
  | resourceAccessorDefinition
  | functionSignature
  | parameter
  | returnTypeDescriptor
  | typeDescriptor
  | typedBindingPattern
  | functionBodyBlock
  | blockStatement
  | localVariableDeclaration
  | assignmentStatement
  | callStatement
  | actionStatement
  | returnStatement
  | breakStatement
  | continueStatement
  | failStatement
  | panicStatement
  | whileStatement
  | foreachStatement
  | ifElseStatement
  | elseBlock
  | lockStatement
  | transactionStatement
  | matchStatement
  | matchClause
  | doStatement
  | onFailClause
  | nameReference
  | qualifiedNameReference
  | functionCall
  | remoteMethodCallAction
  | implicitNewExpression
  | literal
  | binaryExpression
  | error
  deriving DecidableEq

/-- How a construct around the cursor shapes what can be inserted. -/
inductive Construct where
  | iterating
  | branching
  | other
  deriving DecidableEq

namespace Kind

/-- All kinds with their names, in order. -/
def named : List (Kind × String) :=
  [(.whitespace, "WHITESPACE"),
   (.lineComment, "LINE_COMMENT"),
   (.identifier, "IDENT"),
   (.integer, "INTEGER"),
   (.string, "STRING"),
   (.openBrace, "L_BRACE"),
   (.closeBrace, "R_BRACE"),
   (.openParen, "L_PAREN"),
   (.closeParen, "R_PAREN"),
   (.openBracket, "L_BRACKET"),
   (.closeBracket, "R_BRACKET"),
   (.semicolon, "SEMICOLON"),
   (.colon, "COLON"),
   (.comma, "COMMA"),
   (.dot, "DOT"),
   (.equals, "EQ"),
   (.question, "QUESTION"),
   (.rightArrow, "RIGHT_ARROW"),
   (.slash, "SLASH"),
   (.less, "LT"),
   (.greater, "GT"),
   (.importKeyword, "IMPORT_KW"),
   (.functionKeyword, "FUNCTION_KW"),
   (.resourceKeyword, "RESOURCE_KW"),
   (.remoteKeyword, "REMOTE_KW"),
   (.isolatedKeyword, "ISOLATED_KW"),
   (.publicKeyword, "PUBLIC_KW"),
   (.finalKeyword, "FINAL_KW"),
   (.configurableKeyword, "CONFIGURABLE_KW"),
   (.clientKeyword, "CLIENT_KW"),
   (.classKeyword, "CLASS_KW"),
   (.serviceKeyword, "SERVICE_KW"),
   (.returnsKeyword, "RETURNS_KW"),
   (.returnKeyword, "RETURN_KW"),
   (.ifKeyword, "IF_KW"),
   (.elseKeyword, "ELSE_KW"),
   (.whileKeyword, "WHILE_KW"),
   (.foreachKeyword, "FOREACH_KW"),
   (.inKeyword, "IN_KW"),
   (.matchKeyword, "MATCH_KW"),
   (.lockKeyword, "LOCK_KW"),
   (.transactionKeyword, "TRANSACTION_KW"),
   (.doKeyword, "DO_KW"),
   (.onKeyword, "ON_KW"),
   (.failKeyword, "FAIL_KW"),
   (.breakKeyword, "BREAK_KW"),
   (.continueKeyword, "CONTINUE_KW"),
   (.panicKeyword, "PANIC_KW"),
   (.checkKeyword, "CHECK_KW"),
   (.newKeyword, "NEW_KW"),
   (.trueKeyword, "TRUE_KW"),
   (.falseKeyword, "FALSE_KW"),
   (.sourceFile, "SOURCE_FILE"),
   (.importDeclaration, "IMPORT_DECLARATION"),
   (.moduleVariableDeclaration, "MODULE_VARIABLE_DECLARATION"),
   (.functionDefinition, "FUNCTION_DEFINITION"),
   (.classDefinition, "CLASS_DEFINITION"),
   (.serviceDeclaration, "SERVICE_DECLARATION"),
   (.objectMethodDefinition, "OBJECT_METHOD_DEFINITION"),
   (.resourceAccessorDefinition, "RESOURCE_ACCESSOR_DEFINITION"),
   (.functionSignature, "FUNCTION_SIGNATURE"),
   (.parameter, "PARAMETER"),
   (.returnTypeDescriptor, "RETURN_TYPE_DESCRIPTOR"),
   (.typeDescriptor, "TYPE_DESCRIPTOR"),
   (.typedBindingPattern, "TYPED_BINDING_PATTERN"),
   (.functionBodyBlock, "FUNCTION_BODY_BLOCK"),
   (.blockStatement, "BLOCK_STATEMENT"),
   (.localVariableDeclaration, "LOCAL_VARIABLE_DECLARATION"),
   (.assignmentStatement, "ASSIGNMENT_STATEMENT"),
   (.callStatement, "CALL_STATEMENT"),
   (.actionStatement, "ACTION_STATEMENT"),
   (.returnStatement, "RETURN_STATEMENT"),
   (.breakStatement, "BREAK_STATEMENT"),
   (.continueStatement, "CONTINUE_STATEMENT"),
   (.failStatement, "FAIL_STATEMENT"),
   (.panicStatement, "PANIC_STATEMENT"),
   (.whileStatement, "WHILE_STATEMENT"),
   (.foreachStatement, "FOREACH_STATEMENT"),
   (.ifElseStatement, "IF_ELSE_STATEMENT"),
   (.elseBlock, "ELSE_BLOCK"),
   (.lockStatement, "LOCK_STATEMENT"),
   (.transactionStatement, "TRANSACTION_STATEMENT"),
   (.matchStatement, "MATCH_STATEMENT"),
   (.matchClause, "MATCH_CLAUSE"),
   (.doStatement, "DO_STATEMENT"),
   (.onFailClause, "ON_FAIL_CLAUSE"),
   (.nameReference, "NAME_REFERENCE"),
   (.qualifiedNameReference, "QUALIFIED_NAME_REFERENCE"),
   (.functionCall, "FUNCTION_CALL"),
   (.remoteMethodCallAction, "REMOTE_METHOD_CALL_ACTION"),
   (.implicitNewExpression, "IMPLICIT_NEW_EXPRESSION"),
   (.literal, "LITERAL"),
   (.binaryExpression, "BINARY_EXPRESSION"),
   (.error, "ERROR")]

def name (k : Kind) : String := (named.lookup k).getD ""

def ofName? (name : String) : Option Kind :=
  (named.find? fun entry => entry.2 == name).map Prod.fst

def rank (k : Kind) : Nat := k.ctorIdx

def ofRank? (n : Nat) : Option Kind := named[n]?.map Prod.fst

def isTrivia : Kind → Bool
  | .whitespace | .lineComment => true
  | _ => false

def isKeyword (k : Kind) : Bool :=
  rank .importKeyword ≤ k.rank && k.rank ≤ rank .falseKeyword

/-- Whether a kind is one of tokens and not of nodes. -/
def isToken (k : Kind) : Bool := k.rank < rank .sourceFile

/-- Whether a kind is one of definitions that own a return type. -/
def ownsReturnType : Kind → Bool
  | .functionDefinition | .objectMethodDefinition | .resourceAccessorDefinition => true
  | _ => false

/-- How an enclosing node of a kind shapes what can be inserted. -/
def construct : Kind → Construct
  | .whileStatement | .foreachStatement => .iterating
  | .ifElseStatement | .lockStatement | .transactionStatement | .matchStatement | .doStatement
  | .onFailClause => .branching
  | _ => .other

end Kind

end FlowDiagram.Tree
