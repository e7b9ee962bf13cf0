import CoolLang.Program.Basic
import CoolLang.Token.Kind

/-!
Programs as token lists. Every expression inside another one is put into parentheses, so that no
precedence has to be known; what the tokens mean does not depend on their positions, which are all the
same. How a string is spelled as a literal is left to `spell`.
-/

namespace CoolLang

namespace Rendering

/-- A token that its kind alone spells. -/
def sign (kind : TokenKind) : Token :=
  ⟨kind, kind.name, Position.first⟩

def spelled (kind : TokenKind) (lexeme : String) : Token :=
  ⟨kind, lexeme, Position.first⟩

def objectName (ident : Ident) : Token :=
  spelled .objectName ident.name

def typeName (ident : Ident) : Token :=
  spelled .typeName ident.name

def enclosed (tokens : List Token) : List Token :=
  sign .leftParen :: tokens ++ [sign .rightParen]

def operatorKind : Operator → TokenKind
  | .add => .plus
  | .sub => .minus
  | .mul => .star
  | .div => .slash
  | .less => .less
  | .lessEqual => .lessEqual
  | .equal => .equal

/-- Groups of tokens with a comma between two of them. -/
def separated : List (List Token) → List Token
  | [] => []
  | [only] => only
  | first :: second :: others => first ++ sign .comma :: separated (second :: others)

/-- What a dispatch names after its receiver, and before its arguments. -/
def castTokens : Option Ident → List Token
  | none => [sign .dot]
  | some written => [sign .atSign, typeName written, sign .dot]

/-- A declared type, where one is written. -/
def ofType : Option Ident → List Token
  | none => []
  | some written => [sign .colon, typeName written]

mutual

/-- The tokens of an expression, without parentheses around them. -/
def ofExpr (spell : String → String) : Expr → List Token
  | .assign _ target value =>
      [objectName target, sign .assign] ++ enclosed (ofExpr spell value)
  | .dispatch _ receiver cast method args =>
      ofReceiver spell cast receiver ++
        objectName method :: enclosed (separated (ofEach spell args))
  | .cond _ test yes no =>
      sign .ifWord :: enclosed (ofExpr spell test) ++
        sign .thenWord :: enclosed (ofExpr spell yes) ++
        sign .elseWord :: enclosed (ofExpr spell no) ++ [sign .fiWord]
  | .loop _ test body =>
      sign .whileWord :: enclosed (ofExpr spell test) ++
        sign .loopWord :: enclosed (ofExpr spell body) ++ [sign .poolWord]
  | .block _ body =>
      sign .leftBrace ::
        (ofEach spell body).flatMap (fun tokens => tokens ++ [sign .semicolon]) ++
        [sign .rightBrace]
  | .letIn _ bindings body =>
      sign .letWord :: separated (ofBindings spell bindings) ++
        sign .inWord :: enclosed (ofExpr spell body)
  | .caseOf _ scrutinee branches =>
      sign .caseWord :: enclosed (ofExpr spell scrutinee) ++
        sign .ofWord :: ofBranches spell branches ++ [sign .esacWord]
  | .new _ type => [sign .newWord, typeName type]
  | .isVoid _ operand => sign .isvoidWord :: enclosed (ofExpr spell operand)
  | .not _ operand => sign .notWord :: enclosed (ofExpr spell operand)
  | .complement _ operand => sign .tilde :: enclosed (ofExpr spell operand)
  | .binary _ operator left right =>
      enclosed (ofExpr spell left) ++ sign (operatorKind operator) ::
        enclosed (ofExpr spell right)
  | .identifier _ name => [spelled .objectName name]
  | .integer _ value => [spelled .integer (toString value.toNat)]
  | .string _ value => [spelled .string (spell value)]
  | .boolean _ value => [sign (if value then .trueWord else .falseWord)]

/-- The receiver of a dispatch up to the name of the method; nothing where none is written. -/
def ofReceiver (spell : String → String) (cast : Option Ident) : Option Expr → List Token
  | none => []
  | some receiver => enclosed (ofExpr spell receiver) ++ castTokens cast

/-- The tokens of each of several expressions, in parentheses. -/
def ofEach (spell : String → String) : List Expr → List (List Token)
  | [] => []
  | expr :: exprs => enclosed (ofExpr spell expr) :: ofEach spell exprs

def ofBindings (spell : String → String) : List (Binding Expr) → List (List Token)
  | [] => []
  | ⟨name, type, init⟩ :: bindings =>
      (objectName name :: ofType type ++ ofInit spell init) :: ofBindings spell bindings

/-- An initializer, where there is one. -/
def ofInit (spell : String → String) : Option Expr → List Token
  | none => []
  | some init => sign .assign :: enclosed (ofExpr spell init)

def ofBranches (spell : String → String) : List (Branch Expr) → List Token
  | [] => []
  | ⟨name, type, body⟩ :: branches =>
      [objectName name, sign .colon, typeName type, sign .arrow] ++ enclosed (ofExpr spell body) ++
        sign .semicolon :: ofBranches spell branches

end

def ofFeature (spell : String → String) : Feature → List Token
  | .attribute decl =>
      [objectName decl.name, sign .colon, typeName decl.type] ++ ofInit spell decl.init ++
        [sign .semicolon]
  | .method decl =>
      let params := decl.params.map fun param =>
        [objectName param.name, sign .colon, typeName param.type]
      objectName decl.name :: enclosed (separated params) ++
        [sign .colon, typeName decl.result, sign .leftBrace] ++ enclosed (ofExpr spell decl.body) ++
        [sign .rightBrace, sign .semicolon]

/-- The parent of a class, where one is written. -/
def ofParent : Option Ident → List Token
  | none => []
  | some parent => [sign .inheritsWord, typeName parent]

def ofClass (spell : String → String) (decl : ClassDecl) : List Token :=
  [sign .classWord, typeName decl.name] ++ ofParent decl.parent ++
    sign .leftBrace :: decl.features.flatMap (ofFeature spell) ++
    [sign .rightBrace, sign .semicolon]

end Rendering

/-- The tokens of a program, closed by the end of input. -/
def Program.tokens (spell : String → String) (program : Program) : List Token :=
  program.classes.flatMap (Rendering.ofClass spell) ++ [Rendering.sign .endOfInput]

end CoolLang
