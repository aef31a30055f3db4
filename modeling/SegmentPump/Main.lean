import SegmentPump.CommandLine.Outcome

/-! The program: reads its words, its environment and the state of its log
directory, and prints what the library says. -/
namespace SegmentPump.CommandLine

def fieldText : String × Field → String
  | (name, .number n) => s!"{name}={n}"
  | (name, .boolean b) => s!"{name}={b}"
  | (name, .text s) => s!"{name}={s}"

def noticeLine (n : Notice) : String :=
  " ".intercalate (n.level.label :: n.message :: n.fields.map fieldText)

def logDirectory : String := "logs"

def logFile : String := "logs/sluice-last-run.log"

def readEnvironment : IO Environment := do
  let values ← Environment.names.mapM fun name => do
    pure ((← IO.getEnv name).map fun value => (name, value.toUTF8))
  pure (values.filterMap id)

def makeLog : IO LogPlace := do
  try
    IO.FS.createDirAll logDirectory
  catch _ => return .file
  try
    IO.FS.writeFile logFile ""
  catch _ => return .blocked
  return .directory

def usage : String :=
  "Ordered segment delivery into single-slot media sinks\n\n" ++
    "Commands, after an optional --log-level LEVEL:\n" ++
    "  simulate [-n SEGMENTS] [--seed SEED] [--open-delay-ms MS]\n" ++
    "           [--append-latency-ms MS] [--interval-ms MS] [--json]\n" ++
    "  replay [--seed SEED] [--runs RUNS] [-n SEGMENTS] [-v]\n"

def execute (words : List String) : IO UInt32 := do
  match parse words with
  | .error .help =>
    IO.print usage
    return 0
  | .error .usage =>
    IO.eprint usage
    return 2
  | .ok invocation =>
    let place ← makeLog
    let drawn ← IO.rand 0 18446744073709551615
    let outcome := run words (← readEnvironment) place (UInt64.ofNat drawn)
    if outcome.logWritten then
      IO.FS.writeFile logFile (String.join (outcome.log.map fun n => noticeLine n ++ "\n"))
    for notice in outcome.log.filter (·.shownAt invocation.level) do
      IO.println (noticeLine notice)
    for line in outcome.printed.text do
      IO.println line
    IO.eprint (complaintText outcome.complaint)
    return UInt32.ofNat outcome.code

end SegmentPump.CommandLine

def main (words : List String) : IO UInt32 := SegmentPump.CommandLine.execute words
