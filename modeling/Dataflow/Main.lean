import Dataflow.CommandLine.Execution

/-!
# The program

The command line on the files of the system.
-/

namespace Dataflow

/-- The files of the system. -/
def systemFiles : CommandLine.Files IO where
  read path := do
    match ← (IO.FS.readBinFile path).toBaseIO with
    | .ok bytes => return some bytes
    | .error _ => return none
  write path bytes := do
    match ← (IO.FS.writeBinFile path bytes).toBaseIO with
    | .ok _ => return true
    | .error _ => return false

end Dataflow

/-- Does what the arguments ask for. -/
def main (args : List String) : IO UInt32 := do
  let tool : Dataflow.CommandLine.Tool := ⟨"dataflow", "dataflow", "0.1.0"⟩
  let ending ← Dataflow.CommandLine.execute tool Dataflow.systemFiles args
  IO.print ending.out
  IO.eprint ending.err
  return UInt32.ofNat ending.code
