import SegmentPump.Failure
import SegmentPump.Rehearsal.Interleaving
import SegmentPump.Text.Decimal

/-! Settings of sessions and simulations, from three presets or from environment
variables. Durations are in milliseconds. The value of a variable is any string of
bytes, and one that is not a number of 64 bits is passed over. -/
namespace SegmentPump

structure Settings where
  queueWarnDepth : UInt64 := 256
  seed : Option UInt64 := none
  segmentCount : UInt64 := 60
  minSegmentSize : UInt64 := 16384
  maxSegmentSize : UInt64 := 262144
  sinkOpenDelay : UInt64 := 250
  appendLatency : UInt64 := 20
  segmentInterval : UInt64 := 33
  deriving DecidableEq, Repr

namespace Settings

def standard : Settings := {}

def testing : Settings :=
  { seed := some 42, segmentCount := 16, minSegmentSize := 64, maxSegmentSize := 512
    sinkOpenDelay := 5, appendLatency := 1, segmentInterval := 0 }

def development : Settings := { sinkOpenDelay := 1000, appendLatency := 100 }

def sizes (s : Settings) : SizeRange :=
  { smallest := s.minSegmentSize, largest := s.maxSegmentSize }

def validate (s : Settings) : Except Failure Unit :=
  if s.queueWarnDepth = 0 then .error (.configuration "queue_warn_depth must be at least 1")
  else if s.maxSegmentSize < s.minSegmentSize then
    .error (.configuration
      (s!"min_segment_size {s.minSegmentSize} exceeds " ++
        s!"max_segment_size {s.maxSegmentSize}"))
  else .ok ()

def interleaving (s : Settings) (drawn : UInt64) : Interleaving :=
  { seed := s.seed.getD drawn, segmentCount := s.segmentCount.toNat, sizes := s.sizes }

end Settings

abbrev Environment := List (String × ByteArray)

namespace Environment

def number? (env : Environment) (name : String) : Option UInt64 :=
  (env.lookup name).bind Decimal.readWord

def queueWarnDepth : String := "SLUICE_QUEUE_WARN_DEPTH"

def seed : String := "SLUICE_SIMULATION_SEED"

def sinkOpenDelay : String := "SLUICE_SINK_OPEN_DELAY_MS"

def appendLatency : String := "SLUICE_APPEND_LATENCY_MS"

def segmentInterval : String := "SLUICE_SEGMENT_INTERVAL_MS"

def names : List String := [queueWarnDepth, seed, sinkOpenDelay, appendLatency, segmentInterval]

end Environment

def Settings.ofEnvironment (env : Environment) : Settings :=
  let s := Settings.standard
  { s with
    queueWarnDepth := (env.number? Environment.queueWarnDepth).getD s.queueWarnDepth
    seed := (env.number? Environment.seed).or s.seed
    sinkOpenDelay := (env.number? Environment.sinkOpenDelay).getD s.sinkOpenDelay
    appendLatency := (env.number? Environment.appendLatency).getD s.appendLatency
    segmentInterval := (env.number? Environment.segmentInterval).getD s.segmentInterval }

end SegmentPump
