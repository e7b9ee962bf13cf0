import CoolLang.Source.Position

/-!
Diagnostics: what a program text can be blamed for, each with the position that it is about. The
wording of every problem is in `Problem.message`.
-/

namespace CoolLang

inductive Problem where
  /-- A fault of the scanner, which words it itself. -/
  | lexical (message : String)
  | unexpected (near : String)
  | duplicateType (name : String)
  | unknownType (name : String)
  | cyclicInheritance (name : String)
  | invalidParent (child parent : String)
  | wrongOverride (method owner parent : String)
  | duplicateAttribute (name owner : String)
  | duplicateMethod (name owner : String)
  | readOnlySelf
  | incompatibleTypes (source target : String)
  | invalidOperation (left right : String)
  | unknownVariable (name scope : String)
  | unknownMethod (name owner : String)
  | arityMismatch (method owner : String) (expected found : Nat)
  | illegalSelfType (name usage : String)
  | duplicateBranch (name : String)
  | missingMain
deriving DecidableEq

namespace Problem

def quoted (name : String) : String :=
  "\"" ++ name ++ "\""

def message : Problem → String
  | lexical message => message
  | unexpected near => "Syntax error at or near " ++ quoted near ++ "."
  | duplicateType name => "Type " ++ quoted name ++ " is already defined."
  | unknownType name => "Type " ++ quoted name ++ " is not defined."
  | cyclicInheritance name => "Type " ++ quoted name ++ " forms a cyclic heritage chain."
  | invalidParent child parent =>
      "Type " ++ quoted child ++ " cannot inherit from " ++ quoted parent ++ "."
  | wrongOverride method owner parent =>
      "Method " ++ quoted method ++ " of " ++ quoted owner ++ " already defined in " ++
        quoted parent ++ " with a different signature."
  | duplicateAttribute name owner =>
      "Attribute " ++ quoted name ++ " is already defined in " ++ quoted owner ++ "."
  | duplicateMethod name owner =>
      "Method " ++ quoted name ++ " is already defined in " ++ quoted owner ++ "."
  | readOnlySelf => "Variable \"self\" is read-only."
  | incompatibleTypes source target =>
      "Cannot convert " ++ quoted source ++ " into " ++ quoted target ++ "."
  | invalidOperation left right =>
      "Operation is not defined between " ++ quoted left ++ " and " ++ quoted right ++ "."
  | unknownVariable name scope =>
      "Variable " ++ quoted name ++ " is not defined in " ++ quoted scope ++ "."
  | unknownMethod name owner =>
      "Method " ++ quoted name ++ " is not defined in " ++ quoted owner ++ "."
  | arityMismatch method owner expected found =>
      "Method " ++ quoted method ++ " of " ++ quoted owner ++ " only accepts " ++
        toString expected ++ " argument(s), but " ++ toString found ++ " were given."
  | illegalSelfType name usage => "Type " ++ quoted name ++ " cannot be used as " ++ usage ++ "."
  | duplicateBranch name => "Duplicate branch " ++ quoted name ++ " in case expression."
  | missingMain => "The class \"Main\" and its method \"main\" are needed."

end Problem

structure Diagnostic where
  position : Position
  problem : Problem
deriving DecidableEq

def Diagnostic.text (diagnostic : Diagnostic) : String :=
  diagnostic.position.text ++ ": " ++ diagnostic.problem.message

end CoolLang
