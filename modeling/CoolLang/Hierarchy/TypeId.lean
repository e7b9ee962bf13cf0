/-!
Type numbers. The first eight are fixed: three sentinels, which stand for no class, and the five
built-in classes. Classes of a program are numbered after them.
-/

namespace CoolLang

structure TypeId where
  index : Nat
deriving DecidableEq, Inhabited

namespace TypeId

/-- The class around the expression, as it is written. -/
def selfType : TypeId := ⟨0⟩

/-- A type to be inferred, as it is written. -/
def autoType : TypeId := ⟨1⟩

/-- What an expression at fault has; it never causes another fault. -/
def error : TypeId := ⟨2⟩

def object : TypeId := ⟨3⟩

def io : TypeId := ⟨4⟩

def int : TypeId := ⟨5⟩

def string : TypeId := ⟨6⟩

def bool : TypeId := ⟨7⟩

/-- Whether a number is that of a class, and not of a sentinel. -/
def isConcrete (type : TypeId) : Bool :=
  type != selfType && type != autoType && type != error

/-- Whether conformance says anything about a type: the error type and a type yet to be inferred
conform to everything. -/
def isChecked (type : TypeId) : Bool :=
  type != error && type != autoType

/-- A type as it is meant inside a class. -/
def resolveIn (type current : TypeId) : TypeId :=
  if type = selfType then current else type

/-- A type as an expectation, which only a class can be. -/
def expected? (type : TypeId) : Option TypeId :=
  if type.isConcrete then some type else none

end TypeId

end CoolLang
