import SegmentPump.CommandLine.Scan

/-! The two commands, their options and defaults. The level of the console log
can be given before or after the name of the command. -/
namespace SegmentPump.CommandLine

structure SimulateOptions where
  segments : Option UInt64 := none
  seed : Option UInt64 := none
  openDelay : Option UInt64 := none
  appendLatency : Option UInt64 := none
  interval : Option UInt64 := none
  json : Bool := false
  deriving DecidableEq, Repr

structure ReplayOptions where
  seed : UInt64 := 0
  runs : UInt64 := 1
  segments : UInt64 := 32
  verbose : Bool := false
  deriving DecidableEq, Repr

inductive Task
  | simulate (options : SimulateOptions)
  | replay (options : ReplayOptions)
  deriving DecidableEq, Repr

structure Invocation where
  level : Level
  task : Task
  deriving DecidableEq, Repr

def common : List Declared := [{ long := "log-level", kind := .level }]

def simulateDeclared : List Declared :=
  common ++ [
    { long := "segments", short := some 'n', kind := .number },
    { long := "seed", kind := .number },
    { long := "open-delay-ms", kind := .number },
    { long := "append-latency-ms", kind := .number },
    { long := "interval-ms", kind := .number },
    { long := "json", kind := .flag }]

def replayDeclared : List Declared :=
  common ++ [
    { long := "seed", kind := .number },
    { long := "runs", kind := .number },
    { long := "segments", short := some 'n', kind := .number },
    { long := "verbose", short := some 'v', kind := .flag }]

def SimulateOptions.ofGiven (given : List Given) : SimulateOptions where
  segments := numberOf given "segments"
  seed := numberOf given "seed"
  openDelay := numberOf given "open-delay-ms"
  appendLatency := numberOf given "append-latency-ms"
  interval := numberOf given "interval-ms"
  json := isGiven given "json"

def ReplayOptions.ofGiven (given : List Given) : ReplayOptions where
  seed := (numberOf given "seed").getD 0
  runs := (numberOf given "runs").getD 1
  segments := (numberOf given "segments").getD 32
  verbose := isGiven given "verbose"

def scanOptions (declared : List Declared) (words : List String) : Except Halt (List Given) :=
  match scan declared words [] with
  | .error halt => .error halt
  | .ok (given, []) => .ok given
  | .ok (_, _ :: _) => .error .usage

def scanHelp : List String → Halt
  | [] => .help
  | [name] => if name ∈ ["simulate", "replay", "help"] then .help else .usage
  | _ => .usage

def levelOf (before after : List Given) : Level :=
  (((valueOf after "log-level").or (valueOf before "log-level")).bind readLevel).getD .info

def parse (words : List String) : Except Halt Invocation :=
  match scan common words [] with
  | .error halt => .error halt
  | .ok (before, name :: rest) =>
    match name with
    | "simulate" =>
      (scanOptions simulateDeclared rest).map fun given =>
        { level := levelOf before given, task := .simulate (.ofGiven given) }
    | "replay" =>
      (scanOptions replayDeclared rest).map fun given =>
        { level := levelOf before given, task := .replay (.ofGiven given) }
    | "help" => .error (scanHelp rest)
    | _ => .error .usage
  | .ok (_, []) => .error .usage

end SegmentPump.CommandLine
