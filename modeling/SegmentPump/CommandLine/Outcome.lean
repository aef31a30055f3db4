import SegmentPump.CommandLine.Invocation
import SegmentPump.Settings
import SegmentPump.Simulation.Report

/-! What a command line does: its exit code, what it prints, its complaint if it
fails, and whether it left a log file. -/
namespace SegmentPump.CommandLine

inductive LogPlace
  | absent
  | directory
  | file
  | blocked
  deriving DecidableEq, Repr

def LogPlace.obstacle : LogPlace → Option String
  | .absent | .directory => none
  | .file => some "File exists (os error 17)"
  | .blocked => some "Is a directory (os error 21)"

inductive Printed
  | lines (lines : List String)
  | report (report : Report)

def Printed.text : Printed → List String
  | .lines texts => texts
  | .report r => [r.toJson.pretty]

structure Outcome where
  code : Nat := 0
  printed : Printed := .lines []
  complaint : List String := []
  logWritten : Bool := true
  log : List Notice := []

def complaintText : List String → String
  | [] => ""
  | [error] => s!"Error: {error}\n"
  | [error, cause] => s!"Error: {error}\n\nCaused by:\n    {cause}\n"
  | error :: causes =>
    s!"Error: {error}\n\nCaused by:\n" ++
      String.join ((causes.zipIdx).map fun (cause, index) =>
        Decimal.padLeft ' ' 5 (toString index) ++ s!": {cause}\n")

/-- A duration as it is shown: in whole milliseconds below a second, and above
in seconds without trailing zeros. -/
def durationText (millis : Nat) : String :=
  if millis < 1000 then s!"{millis}ms"
  else
    let places := (Decimal.padLeft '0' 3 (toString (millis % 1000))).toList
    let kept := (places.reverse.dropWhile (· == '0')).reverse
    s!"{millis / 1000}" ++ (if kept.isEmpty then "" else "." ++ String.ofList kept) ++ "s"

def SimulateOptions.settings (o : SimulateOptions) (env : Environment) : Settings :=
  let s := Settings.ofEnvironment env
  { s with
    segmentCount := o.segments.getD s.segmentCount
    seed := o.seed.or s.seed
    sinkOpenDelay := o.openDelay.getD s.sinkOpenDelay
    appendLatency := o.appendLatency.getD s.appendLatency
    segmentInterval := o.interval.getD s.segmentInterval }

def bytesPerMegabyte : Nat := 1048576

def reportLines (r : Report) : List String :=
  [s!"Simulated session (seed {r.seed})",
    "".pushn '-' 60,
    s!"Segments appended:  {r.stats.segmentsAppended}",
    s!"Bytes appended:     {Decimal.fixed 2 r.stats.bytesAppended bytesPerMegabyte} MB",
    s!"Peak queue depth:   {r.stats.peakQueueDepth}",
    s!"Elapsed:            {durationText (r.elapsed / nanosPerMilli)}"]

def numberList (numbers : List Nat) : String :=
  "[" ++ ", ".intercalate (numbers.map toString) ++ "]"

def simulate (o : SimulateOptions) (env : Environment) (drawn : UInt64) : Outcome :=
  match (o.settings env).simulate drawn with
  | .error (.size overflow) => { code := 101, complaint := [overflow.message] }
  | .error (.error error) =>
    { code := 1, complaint := ["simulated session failed", error.message] ++ error.causes }
  | .ok (report, log) =>
    let printed := if o.json then .report report else .lines (reportLines report)
    if report.deliveredInOrder then { printed, log }
    else
      { code := 1, printed, log
        complaint := ["sink accepted segments out of order: " ++ numberList report.accepted] }

/-- The seeds of a replay. The number after the last one must fit into 64 bits. -/
def ReplayOptions.seeds (o : ReplayOptions) : List UInt64 :=
  let count := min o.runs.toNat (18446744073709551615 - o.seed.toNat)
  (List.range count).map fun i => o.seed + UInt64.ofNat i

def eventLines (t : Trace) : List String :=
  t.zipIdx.map fun (event, index) =>
    "  [" ++ Decimal.padLeft ' ' 4 (toString index) ++ "] " ++ event.describe

def verdictLines (r : Interleaving.Report) : List String :=
  if r.isClean then
    [s!"seed {r.seed}: ok ({r.trace.length} events, " ++
      s!"peak queue {r.stats.peakQueueDepth})"]
  else r.violations.map fun v => s!"seed {r.seed}: {v.message}"

structure Replayed where
  lines : Line String := .empty
  failed : Nat := 0
  log : Line Notice := .empty

def Replayed.add (p : Replayed) (verbose : Bool) (r : Interleaving.Report) : Replayed where
  lines := (if verbose then p.lines.append (eventLines r.trace) else p.lines).append (verdictLines r)
  failed := if r.isClean then p.failed else p.failed + 1
  log := p.log.append r.log

def rehearsalComplaint : RehearsalFailure → Outcome
  | .fault (.pump error) =>
    let error := SimulationError.pump error
    { code := 1, complaint := error.message :: error.causes }
  | .size overflow => { code := 101, complaint := [overflow.message] }
  | _ => { code := 101 }

def replaySeeds (o : ReplayOptions) (warnDepth : Nat) : List UInt64 → Replayed → Outcome
  | [], p =>
    if p.failed = 0 then { printed := .lines p.lines.toList, log := p.log.toList }
    else
      { code := 1, printed := .lines p.lines.toList, log := p.log.toList
        complaint := [s!"{p.failed} of {o.runs} replays violated pump invariants"] }
  | seed :: rest, p =>
    let i : Interleaving := { seed, segmentCount := o.segments.toNat }
    match i.run warnDepth with
    | .ok report => replaySeeds o warnDepth rest (p.add o.verbose report)
    | .error failure =>
      { rehearsalComplaint failure with printed := .lines p.lines.toList, log := p.log.toList }

def replay (o : ReplayOptions) (env : Environment) : Outcome :=
  replaySeeds o (Settings.ofEnvironment env).queueWarnDepth.toNat o.seeds {}

def Task.run (env : Environment) (drawn : UInt64) : Task → Outcome
  | .simulate o => CommandLine.simulate o env drawn
  | .replay o => CommandLine.replay o env

def run (words : List String) (env : Environment) (place : LogPlace) (drawn : UInt64) : Outcome :=
  match parse words with
  | .error .help => { code := 0, logWritten := false }
  | .error .usage => { code := 2, logWritten := false }
  | .ok invocation =>
    match place.obstacle with
    | some reason =>
      { code := 1, logWritten := false, complaint := [s!"failed to initialize tracing: {reason}"] }
    | none => invocation.task.run env drawn

end SegmentPump.CommandLine
