import SegmentPump.Rehearsal.Basic

/-! Seeded random interleavings. At each turn one of the legal actions is drawn:
an arrival while segments remain, a completion while an append is under way,
and readiness, once for certain and now and then again. The run ends when
nothing is legal. -/
namespace SegmentPump

structure Interleaving where
  seed : UInt64
  segmentCount : Nat
  sizes : SizeRange := { smallest := 16, largest := 256 }
  repeatProbability : Float := 0.1

namespace Interleaving

def maxRepeats : Nat := 3

inductive Action
  | arrive
  | complete
  | ready
  deriving DecidableEq, Repr

structure Play where
  rehearsal : Rehearsal
  repeats : Nat := 0

/-- Whether readiness is legal. Chance is asked only once the sink is ready and
repeats are left. -/
def offersReady (i : Interleaving) (p : Play) : Bool × Generator :=
  if !p.rehearsal.readySent then (true, p.rehearsal.generator)
  else if p.repeats < maxRepeats then p.rehearsal.generator.chance i.repeatProbability
  else (false, p.rehearsal.generator)

def legal (i : Interleaving) (p : Play) (ready : Bool) : List Action :=
  (if p.rehearsal.next < i.segmentCount then [.arrive] else []) ++
    (if p.rehearsal.busy then [.complete] else []) ++ (if ready then [.ready] else [])

def perform (i : Interleaving) (p : Play) : Action → Except RehearsalFailure Play
  | .arrive =>
    match i.sizes.segment p.rehearsal.next p.rehearsal.generator with
    | .error overflow => .error (.size overflow)
    | .ok (segment, generator) =>
      ({ p.rehearsal with generator }.arrive segment).map fun rehearsal => { p with rehearsal }
  | .complete => p.rehearsal.complete.map fun rehearsal => { p with rehearsal }
  | .ready =>
    p.rehearsal.ready.map fun rehearsal =>
      { rehearsal, repeats := if p.rehearsal.readySent then p.repeats + 1 else p.repeats }

def turn (i : Interleaving) (p : Play) : Option (Except RehearsalFailure Play) :=
  let (ready, generator) := i.offersReady p
  let actions := i.legal p ready
  let (choice, generator) := generator.range 0 (UInt64.ofNat actions.length)
  actions[choice.toNat]?.map
    (i.perform { p with rehearsal := { p.rehearsal with generator } })

def turns (i : Interleaving) : Nat → Play → Except RehearsalFailure Play
  | count, p =>
    match i.turn p with
    | none => .ok p
    | some result =>
      match count with
      | 0 => .error .unfinished
      | count + 1 =>
        match result with
        | .ok p => i.turns count p
        | .error failure => .error failure

/-- Each segment arrives once and is completed once, and readiness is sent once
and repeated at most `maxRepeats` times. -/
def longest (i : Interleaving) : Nat := 2 * i.segmentCount + 1 + maxRepeats

structure Report where
  seed : UInt64
  stats : Stats
  trace : Trace
  violations : List Violation
  log : List Notice

def Report.isClean (r : Report) : Bool := r.violations.isEmpty

def report (i : Interleaving) (p : Play) : Report :=
  let trace := p.rehearsal.trace
  let violations := trace.violations
  { seed := i.seed, stats := p.rehearsal.pump.stats, trace, violations
    log := (p.rehearsal.log.push
      (.interleavingFinished i.seed trace.length violations.length)).toList }

def runFrom (i : Interleaving) (generator : Generator) (warnDepth : Nat) :
    Except RehearsalFailure Report :=
  (i.turns i.longest { rehearsal := .new generator warnDepth }).map i.report

def run (i : Interleaving) (warnDepth : Nat) : Except RehearsalFailure Report :=
  i.runFrom (.ofSeed i.seed) warnDepth

end Interleaving
end SegmentPump
