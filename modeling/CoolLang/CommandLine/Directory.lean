import CoolLang.CommandLine.Run

/-!
A directory in memory, with no directory inside it. Running a command line in one shows what it reads
and writes.
-/

namespace CoolLang

/-- Files by name, without two of the same name. -/
structure Directory where
  files : List (String × ByteArray)

namespace Directory

/-- The name of the file that a path means here; parts before it can only mean the directory itself. -/
def fileName? (path : String) : Option String :=
  let parts := path.splitOn "/"
  match parts.filter fun part => part ≠ "" && part ≠ "." with
  | [name] =>
      if parts.head? ≠ some "" && parts.getLast? = some name && name ≠ ".." then some name
      else none
  | _ => none

def find? (directory : Directory) (name : String) : Option ByteArray :=
  (directory.files.find? fun file => file.1 = name).map Prod.snd

def put (directory : Directory) (name : String) (bytes : ByteArray) : Directory :=
  ⟨(name, bytes) :: directory.files.filter fun file => file.1 ≠ name⟩

/-- A run in a directory. -/
def access : FileAccess (StateM Directory) where
  read path := do
    let directory ← get
    return (fileName? path).bind directory.find?
  write path text :=
    match fileName? path with
    | none => return false
    | some name => do
        modify fun directory => directory.put name text.toUTF8
        return true

end Directory

end CoolLang
