import CoolLang.Program.Basic
import CoolLang.Text.Literal
import CoolLang.Token.Kind

/-!
The grammar of the language. Each nonterminal is a `Phrase`; each rule comes with an action that
builds the phrase's part of the tree (`Value`) from the parts of the right-hand side.
-/

namespace CoolLang

/-- The nonterminals, in the order of their numbers; the first one is the augmented start symbol. -/
inductive Phrase where
  | whole
  | program
  | classList
  | classDef
  | featureList
  | feature
  | paramList
  | param
  | expr
  | exprList
  | letList
  | letBinding
  | caseList
  | truth
  | comparison
  | arith
  | term
  | factor
  | voidFactor
  | callFactor
  | call
  | argList
  | atom
  | memberCall
deriving DecidableEq

namespace Phrase

def all : List Phrase :=
  [whole, program, classList, classDef, featureList, feature, paramList, param, expr, exprList,
   letList, letBinding, caseList, truth, comparison, arith, term, factor, voidFactor, callFactor,
   call, argList, atom, memberCall]

def nonterminal (phrase : Phrase) : Nonterminal :=
  phrase.ctorIdx

theorem all_getElem?_nonterminal (phrase : Phrase) :
    all[phrase.nonterminal]? = some phrase := by
  cases phrase <;> rfl

def name : Phrase → String
  | whole => "$start"
  | program => "program"
  | classList => "class-list"
  | classDef => "def-class"
  | featureList => "feature-list"
  | feature => "feature"
  | paramList => "param-list"
  | param => "param"
  | expr => "expr"
  | exprList => "expr-list"
  | letList => "let-list"
  | letBinding => "let-binding"
  | caseList => "case-list"
  | truth => "truth-expr"
  | comparison => "comp-expr"
  | arith => "arith"
  | term => "term"
  | factor => "factor"
  | voidFactor => "factor-2"
  | callFactor => "factor-3"
  | call => "func-call"
  | argList => "arg-list"
  | atom => "atom"
  | memberCall => "member-call"

instance : Coe Phrase Symbol := ⟨fun phrase => .nonterminal phrase.nonterminal⟩

end Phrase

instance : Coe TokenKind Symbol := ⟨fun kind => .terminal kind.terminal⟩

/-- `.method(args)` or `@cast.method(args)`, still without its receiver. -/
structure CallSuffix where
  cast : Option Ident
  method : Ident
  args : List Expr

/-- A part of a program tree, as a token or a phrase stands for it. -/
inductive Value where
  | token (token : Token)
  | program (program : Program)
  | classes (classes : List ClassDecl)
  | classDecl (decl : ClassDecl)
  | features (features : List Feature)
  | feature (feature : Feature)
  | params (params : List Param)
  | param (param : Param)
  | expr (expr : Expr)
  | exprs (exprs : List Expr)
  | bindings (bindings : List (Binding Expr))
  | binding (binding : Binding Expr)
  | branches (branches : List (Branch Expr))
  | call (call : CallSuffix)

/-- Builds the value of a phrase; none if the parts are not those of the rule. -/
abbrev BuildAction := List Value → Option Value

namespace Token

/-- Which terminal a token is. -/
def terminal (token : Token) : Terminal :=
  token.kind.terminal

def ident (token : Token) : Ident :=
  ⟨token.lexeme, token.position⟩

/-- The note of an untyped expression that begins with a token. -/
def note (token : Token) : Note :=
  ⟨token.position, none⟩

end Token

namespace Phrase

def rule (phrase : Phrase) (right : List Symbol) (action : BuildAction) : Rule BuildAction :=
  ⟨phrase.nonterminal, right, some action⟩

/-- The value of a phrase that is just another phrase. -/
def pass : BuildAction
  | [.expr value] => some (.expr value)
  | _ => none

/-- An operator between two operands; the expression begins where its left operand does. -/
def binary (operator : Operator) : BuildAction
  | [.expr left, _, .expr right] =>
      some (.expr (.binary ⟨left.position, none⟩ operator left right))
  | _ => none

open TokenKind

def classRules : List (Rule BuildAction) := [
  rule program [classList] fun
    | [.classes classes] => some (.program ⟨classes⟩)
    | _ => none,
  rule classList [classDef, classList] fun
    | [.classDecl decl, .classes classes] => some (.classes (decl :: classes))
    | _ => none,
  rule classList [classDef] fun
    | [.classDecl decl] => some (.classes [decl])
    | _ => none,
  rule classDef [classWord, typeName, leftBrace, featureList, rightBrace, semicolon] fun
    | [.token word, .token name, _, .features features, _, _] =>
        some (.classDecl ⟨name.ident, none, features, word.position⟩)
    | _ => none,
  rule classDef [classWord, typeName, inheritsWord, typeName, leftBrace, featureList, rightBrace,
      semicolon] fun
    | [.token word, .token name, _, .token parent, _, .features features, _, _] =>
        some (.classDecl ⟨name.ident, some parent.ident, features, word.position⟩)
    | _ => none]

def featureRules : List (Rule BuildAction) := [
  rule featureList [feature, featureList] fun
    | [.feature head, .features features] => some (.features (head :: features))
    | _ => none,
  rule featureList [] fun
    | [] => some (.features [])
    | _ => none,
  rule feature [objectName, colon, typeName, semicolon] fun
    | [.token name, _, .token type, _] =>
        some (.feature (.attribute ⟨name.ident, type.ident, none⟩))
    | _ => none,
  rule feature [objectName, colon, typeName, assign, expr, semicolon] fun
    | [.token name, _, .token type, _, .expr init, _] =>
        some (.feature (.attribute ⟨name.ident, type.ident, some init⟩))
    | _ => none,
  rule feature [objectName, leftParen, paramList, rightParen, colon, typeName, leftBrace, expr,
      rightBrace, semicolon] fun
    | [.token name, _, .params params, _, _, .token result, _, .expr body, _, _] =>
        some (.feature (.method ⟨name.ident, params, result.ident, body⟩))
    | _ => none,
  rule feature [objectName, leftParen, rightParen, colon, typeName, leftBrace, expr, rightBrace,
      semicolon] fun
    | [.token name, _, _, _, .token result, _, .expr body, _, _] =>
        some (.feature (.method ⟨name.ident, [], result.ident, body⟩))
    | _ => none,
  rule paramList [param] fun
    | [.param only] => some (.params [only])
    | _ => none,
  rule paramList [param, comma, paramList] fun
    | [.param head, _, .params params] => some (.params (head :: params))
    | _ => none,
  rule param [objectName, colon, typeName] fun
    | [.token name, _, .token type] => some (.param ⟨name.ident, type.ident⟩)
    | _ => none]

def exprRules : List (Rule BuildAction) := [
  rule expr [ifWord, expr, thenWord, expr, elseWord, expr, fiWord] fun
    | [.token word, .expr test, _, .expr yes, _, .expr no, _] =>
        some (.expr (.cond word.note test yes no))
    | _ => none,
  rule expr [whileWord, expr, loopWord, expr, poolWord] fun
    | [.token word, .expr test, _, .expr body, _] => some (.expr (.loop word.note test body))
    | _ => none,
  rule expr [leftBrace, exprList, rightBrace] fun
    | [.token brace, .exprs body, _] => some (.expr (.block brace.note body))
    | _ => none,
  rule expr [letWord, letList, inWord, expr] fun
    | [.token word, .bindings bindings, _, .expr body] =>
        some (.expr (.letIn word.note bindings body))
    | _ => none,
  rule expr [caseWord, expr, ofWord, caseList, esacWord] fun
    | [.token word, .expr scrutinee, _, .branches branches, _] =>
        some (.expr (.caseOf word.note scrutinee branches))
    | _ => none,
  rule expr [objectName, assign, expr] fun
    | [.token name, _, .expr value] => some (.expr (.assign name.note name.ident value))
    | _ => none,
  rule expr [truth] pass,
  rule exprList [expr, semicolon] fun
    | [.expr value, _] => some (.exprs [value])
    | _ => none,
  rule exprList [expr, semicolon, exprList] fun
    | [.expr value, _, .exprs values] => some (.exprs (value :: values))
    | _ => none]

def bindingRules : List (Rule BuildAction) := [
  rule letList [letBinding] fun
    | [.binding binding] => some (.bindings [binding])
    | _ => none,
  rule letList [letBinding, comma, letList] fun
    | [.binding binding, _, .bindings bindings] => some (.bindings (binding :: bindings))
    | _ => none,
  rule letBinding [objectName, colon, typeName] fun
    | [.token name, _, .token type] => some (.binding ⟨name.ident, some type.ident, none⟩)
    | _ => none,
  rule letBinding [objectName, colon, typeName, assign, expr] fun
    | [.token name, _, .token type, _, .expr init] =>
        some (.binding ⟨name.ident, some type.ident, some init⟩)
    | _ => none,
  rule letBinding [objectName, assign, expr] fun
    | [.token name, _, .expr init] => some (.binding ⟨name.ident, none, some init⟩)
    | _ => none,
  rule letBinding [objectName] fun
    | [.token name] => some (.binding ⟨name.ident, none, none⟩)
    | _ => none,
  rule caseList [objectName, colon, typeName, arrow, expr, semicolon] fun
    | [.token name, _, .token type, _, .expr body, _] =>
        some (.branches [⟨name.ident, type.ident, body⟩])
    | _ => none,
  rule caseList [objectName, colon, typeName, arrow, expr, semicolon, caseList] fun
    | [.token name, _, .token type, _, .expr body, _, .branches branches] =>
        some (.branches (⟨name.ident, type.ident, body⟩ :: branches))
    | _ => none]

def operatorRules : List (Rule BuildAction) := [
  rule truth [notWord, truth] fun
    | [.token word, .expr operand] => some (.expr (.not word.note operand))
    | _ => none,
  rule truth [comparison] pass,
  rule comparison [comparison, lessEqual, arith] (binary .lessEqual),
  rule comparison [comparison, less, arith] (binary .less),
  rule comparison [comparison, equal, arith] (binary .equal),
  rule comparison [arith] pass,
  rule arith [arith, plus, term] (binary .add),
  rule arith [arith, minus, term] (binary .sub),
  rule arith [term] pass,
  rule term [term, star, factor] (binary .mul),
  rule term [term, slash, factor] (binary .div),
  rule term [factor] pass,
  rule factor [isvoidWord, voidFactor] fun
    | [.token word, .expr operand] => some (.expr (.isVoid word.note operand))
    | _ => none,
  rule factor [voidFactor] pass,
  rule voidFactor [tilde, callFactor] fun
    | [.token sign, .expr operand] => some (.expr (.complement sign.note operand))
    | _ => none,
  rule voidFactor [callFactor] pass]

def callRules : List (Rule BuildAction) := [
  rule callFactor [callFactor, call] fun
    | [.expr receiver, .call ⟨cast, method, args⟩] =>
        some (.expr (.dispatch ⟨receiver.position, none⟩ (some receiver) cast method args))
    | _ => none,
  rule callFactor [atom] pass,
  rule call [dot, objectName, leftParen, argList, rightParen] fun
    | [_, .token method, _, .exprs args, _] => some (.call ⟨none, method.ident, args⟩)
    | _ => none,
  rule call [dot, objectName, leftParen, rightParen] fun
    | [_, .token method, _, _] => some (.call ⟨none, method.ident, []⟩)
    | _ => none,
  rule call [atSign, typeName, dot, objectName, leftParen, argList, rightParen] fun
    | [_, .token cast, _, .token method, _, .exprs args, _] =>
        some (.call ⟨some cast.ident, method.ident, args⟩)
    | _ => none,
  rule call [atSign, typeName, dot, objectName, leftParen, rightParen] fun
    | [_, .token cast, _, .token method, _, _] => some (.call ⟨some cast.ident, method.ident, []⟩)
    | _ => none,
  rule argList [expr] fun
    | [.expr arg] => some (.exprs [arg])
    | _ => none,
  rule argList [expr, comma, argList] fun
    | [.expr arg, _, .exprs args] => some (.exprs (arg :: args))
    | _ => none]

def atomRules : List (Rule BuildAction) := [
  rule atom [memberCall] pass,
  rule atom [newWord, typeName] fun
    | [.token word, .token type] => some (.expr (.new word.note type.ident))
    | _ => none,
  rule atom [leftParen, expr, rightParen] fun
    | [_, .expr inner, _] => some (.expr inner)
    | _ => none,
  rule atom [objectName] fun
    | [.token name] => some (.expr (.identifier name.note name.lexeme))
    | _ => none,
  rule atom [integer] fun
    | [.token literal] => some (.expr (.integer literal.note (Text.integerLiteral literal.lexeme)))
    | _ => none,
  rule atom [string] fun
    | [.token literal] => some (.expr (.string literal.note (Text.stringLiteral literal.lexeme)))
    | _ => none,
  rule atom [trueWord] fun
    | [.token word] => some (.expr (.boolean word.note true))
    | _ => none,
  rule atom [falseWord] fun
    | [.token word] => some (.expr (.boolean word.note false))
    | _ => none,
  rule memberCall [objectName, leftParen, argList, rightParen] fun
    | [.token method, _, .exprs args, _] =>
        some (.expr (.dispatch method.note none none method.ident args))
    | _ => none,
  rule memberCall [objectName, leftParen, rightParen] fun
    | [.token method, _, _] => some (.expr (.dispatch method.note none none method.ident []))
    | _ => none]

end Phrase

namespace Program

/-- The grammar of programs, augmented. -/
def grammar : Grammar BuildAction where
  terminals := TokenKind.all.map TokenKind.name
  nonterminals := Phrase.all.map Phrase.name
  rules := ⟨Nonterminal.augmented, [Phrase.program], none⟩ ::
    (Phrase.classRules ++ Phrase.featureRules ++ Phrase.exprRules ++ Phrase.bindingRules ++
      Phrase.operatorRules ++ Phrase.callRules ++ Phrase.atomRules)
  start := Phrase.program.nonterminal

end Program

end CoolLang
