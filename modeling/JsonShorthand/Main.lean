import JsonShorthand.CommandLine.Run

open JsonShorthand

def main (arguments : List String) : IO UInt32 := do
  let request := CommandLine.Request.ofArguments arguments
  let stdin ← IO.getStdin
  let input ←
    if request.readsInput && !(← stdin.isTty) then stdin.readBinToEnd else pure ByteArray.empty
  let outcome := request.outcome input
  (← IO.getStdout).putStr outcome.output
  (← IO.getStderr).putStr outcome.errors
  return .ofNat outcome.status
