import RegexSearch.SelfCheck

/-! # Command line

Runs the self-check. The environment may hold a log filter. -/

/-- Prints the report and the log and answers the exit status. -/
def main : IO UInt32 := do
  let spec ← IO.getEnv "MINIRE_DEBUG_LOG"
  let result := RegexSearch.SelfCheck.run RegexSearch.SelfCheck.cases (spec.map String.toList)
  for line in result.log do
    IO.eprintln (String.ofList line)
  for line in result.output do
    IO.println (String.ofList line)
  return UInt32.ofNat result.status
