import CoolLang.CommandLine.Run

/-!
The command line over the files of the machine.
-/

namespace CoolLang

/-- The files of the machine. -/
def machineFiles : FileAccess IO where
  read path := do
    try return some (← IO.FS.readBinFile path)
    catch _ => return none
  write path text := do
    try
      IO.FS.writeFile path text
      return true
    catch _ => return false

end CoolLang

def main (args : List String) : IO UInt32 := do
  let outcome ← CoolLang.runCommandLine CoolLang.machineFiles args
  IO.print outcome.output
  IO.eprint outcome.complaint
  return outcome.code
