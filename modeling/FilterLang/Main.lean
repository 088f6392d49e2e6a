import FilterLang.Program

/-! The command line program. -/
namespace FilterLang

def readStdin : IO (Option ByteArray) := do
  let stdin ← IO.getStdin
  if ← stdin.isTty then return none
  return some (← stdin.readBinToEnd)

end FilterLang

open FilterLang in
def main (args : List String) : IO UInt32 := do
  match CommandLine.read args with
  | none =>
    IO.eprint Program.usage
    return 2
  | some request =>
    let stdin ← if Program.reads request then readStdin else pure none
    let outcome := Program.run request stdin
    IO.eprint outcome.errorText
    IO.print outcome.output
    return outcome.exitCode.toUInt32
