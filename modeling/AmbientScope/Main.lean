import AmbientScope.CommandLine.Run

/-!
# The command line

Runs the arguments of the process on the disk. Paths are relative to the current directory.
-/

set_option autoImplicit false

open AmbientScope.CommandLine

/-- The files of the disk; what cannot be read as text does not count. -/
def diskFiles : Files IO where
  read path := do
    try
      return some (← IO.FS.readFile path)
    catch _ => return none
  has path := do
    try
      let _ ← IO.FS.Handle.mk path .read
      return true
    catch _ => return false
  write path text := IO.FS.writeFile path text

def main (args : List String) : IO UInt32 := do
  let outcome ← run diskFiles args
  match outcome with
  | .misuse => IO.eprint (helpText none)
  | .failed problem => IO.eprintln ("Error: " ++ problem.headline)
  | .finished _ output errors =>
    IO.print output
    IO.eprint errors
  return outcome.code.toUInt32
