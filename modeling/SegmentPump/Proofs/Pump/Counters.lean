import SegmentPump.Proofs.Pump.Ledger

/-! The counters of a pump, whatever the sink made of its offers. Every segment that
was received waits, was appended or was refused, and with it its bytes. The counters
are numbers without a bound here; `Within` says that they would fit in a word of the
given size, and a pump that is fed fewer events and bytes than that stays within it,
before and after each append. -/
namespace SegmentPump

variable {σ : Type}

namespace Observed

def refused (o : Observed σ) : List Segment :=
  (o.offers.toList.filter fun offer => offer.reply ≠ .accepted).map Offer.segment

theorem offeredParts (o : Observed σ) :
    o.offered.length = o.appended.length + o.refused.length ∧
      totalSize o.offered = totalSize o.appended + totalSize o.refused := by
  rw [offered, appended, refused]
  induction o.offers.toList with
  | nil => exact ⟨rfl, rfl⟩
  | cons offer rest ih =>
    obtain ⟨count, bytes⟩ := ih
    by_cases accepted : offer.reply = .accepted
    · simp [accepted] at count bytes ⊢
      omega
    · simp [accepted] at count bytes ⊢
      omega

end Observed

theorem arrivalsLength (events : List Event) : (arrivals events).length ≤ events.length := by
  induction events with
  | nil => exact Nat.le_refl 0
  | cons e rest ih =>
    have one : e.arrivals.length ≤ 1 := by cases e <;> simp [Event.arrivals]
    rw [← List.singleton_append, arrivalsAppend, arrivalsOne, List.length_append, List.length_append,
      List.length_singleton]
    omega

structure Stats.Balances (s : Stats) (waiting refused : List Segment) : Prop where
  segments : s.segmentsReceived = s.queueDepth + s.segmentsAppended + refused.length
  bytes : s.bytesReceived = s.queuedBytes + s.bytesAppended + totalSize refused
  queueDepth : s.queueDepth = waiting.length
  queuedBytes : s.queuedBytes = totalSize waiting
  slot : s.segmentsAppended = s.completions + s.slot.load
  pending : s.pending = s.queueDepth + s.slot.load + refused.length
  unsaturated : s.completions ≤ s.segmentsReceived
  depth : s.queueDepth ≤ s.peakQueueDepth
  peak : s.peakQueueDepth ≤ s.segmentsReceived

namespace Pump

structure Within (limit : Nat) (p : Pump σ) : Prop where
  segmentsReceived : p.counters.segmentsReceived < limit
  bytesReceived : p.counters.bytesReceived < limit
  segmentsAppended : p.counters.segmentsAppended < limit
  bytesAppended : p.counters.bytesAppended < limit
  completions : p.counters.completions < limit
  peakDepth : p.counters.peakDepth < limit
  depth : p.backlog.size < limit
  queuedBytes : p.backlog.bytes < limit

structure Peaked (p : Pump σ) : Prop where
  depth : p.waiting.length ≤ p.counters.peakDepth
  received : p.counters.peakDepth ≤ p.counters.segmentsReceived

variable {p : Pump σ}

theorem peakedNew (sink : σ) (warnDepth : Nat) : (new sink warnDepth).Peaked where
  depth := Nat.le_refl 0
  received := Nat.le_refl 0

theorem peakedEnter (peaked : p.Peaked) (e : Event) : (p.enter e).pump.Peaked := by
  cases e with
  | arrived segment =>
    have depth := peaked.depth
    have received := peaked.received
    have waiting : (p.receive segment).pump.waiting = p.waiting ++ [segment] :=
      enterWaiting p (.arrived segment)
    constructor
    · rw [enter, waiting, List.length_append, List.length_singleton]
      simp only [receive, pushDepth]
      omega
    · simp only [enter, receive, pushDepth]
      omega
  | sinkReady => exact ⟨peaked.depth, peaked.received⟩
  | completed => exact ⟨peaked.depth, peaked.received⟩

variable [Sink σ]

theorem peakedReact (latched : p.Latched) (peaked : p.Peaked) (e : Event) :
    (p.react e).pump.Peaked := by
  have entered := peakedEnter peaked e
  have way := applied latched e
  rw [reactPump]
  generalize p.apply e = s at way ⊢
  cases way with
  | unexpected => exact peaked
  | held => exact entered
  | advanced _ _ advance =>
    cases advance with
    | rest => exact entered
    | @offer segment rest reply sink head =>
      have depth := entered.depth
      rw [head, List.length_cons] at depth
      have shorter : rest.length ≤ (p.enter e).pump.counters.peakDepth := by omega
      have waiting : ((p.enter e).pump.handOver segment rest sink).waiting = rest :=
        waitingHandOver _ segment rest sink
      constructor
      · rw [Step.afterPump, concludeWaiting, waiting]
        cases reply <;> exact shorter
      · cases reply <;> exact entered.received

theorem peakedAfter (latched : p.Latched) (peaked : p.Peaked) (events : List Event) :
    (p.after events).Peaked := by
  induction events generalizing p with
  | nil => exact peaked
  | cons e rest ih => exact ih (reactLatched latched e) (peakedReact latched peaked e)

section

variable {start : σ} {p : Pump (Observed σ)} {arrived : List Segment} {ready : Bool} {done : Nat}

theorem ledgerBalances (books : Ledger start p arrived ready done) (peaked : p.Peaked) :
    p.stats.Balances p.waiting p.sink.refused := by
  have depth : p.backlog.size = p.waiting.length := Backlog.sizeToList p.backlog
  have queued : p.backlog.bytes = totalSize p.waiting := books.exact
  obtain ⟨received, receivedBytes⟩ := books.received
  obtain ⟨appended, appendedBytes⟩ := books.appended
  obtain ⟨offered, offeredBytes⟩ := Observed.offeredParts p.sink
  have balance := books.balance
  have completions := books.completions
  have arrivedLength := congrArg List.length books.conserved
  have arrivedBytes := congrArg totalSize books.conserved
  rw [List.length_append] at arrivedLength
  rw [totalSizeAppend] at arrivedBytes
  constructor
  case segments => simp only [stats]; omega
  case bytes => simp only [stats]; omega
  case queueDepth => exact depth
  case queuedBytes => exact queued
  case slot => simp only [stats]; omega
  case pending => simp only [Stats.pending, stats]; omega
  case unsaturated => simp only [stats]; omega
  case depth => exact Nat.le_trans (Nat.le_of_eq depth) peaked.depth
  case peak => exact peaked.received

theorem ledgerWithin (books : Ledger start p arrived ready done) (peaked : p.Peaked) {limit : Nat}
    (few : arrived.length < limit) (small : totalSize arrived < limit) : p.Within limit := by
  have balances := ledgerBalances books peaked
  obtain ⟨received, receivedBytes⟩ := books.received
  have segments : p.counters.segmentsReceived =
      p.backlog.size + p.counters.segmentsAppended + p.sink.refused.length := balances.segments
  have bytes : p.counters.bytesReceived =
      p.backlog.bytes + p.counters.bytesAppended + totalSize p.sink.refused := balances.bytes
  have completions : p.counters.completions ≤ p.counters.segmentsReceived := balances.unsaturated
  have peak : p.counters.peakDepth ≤ p.counters.segmentsReceived := balances.peak
  constructor <;> omega

end

/- A call for an append finds the pump as the event has left it so far, so that every
sum is one of this pump or of the one in the end, and the one difference that is
formed is of this pump's backlog. -/
theorem countersConserved (sink : σ) (warnDepth : Nat) (events : List Event) :
    let p := (observed sink warnDepth).after events
    p.stats.Balances p.waiting p.sink.refused ∧
      ∀ e, (events ++ [e]).length < UInt64.size → totalSize (arrivals (events ++ [e])) < UInt64.size →
        (p.Calls e → (p.enter e).pump.Within UInt64.size ∧
          ∀ segment rest, (p.enter e).pump.backlog.pop = (.ok segment, rest) →
            rest.bytes + segment.size = (p.enter e).pump.backlog.bytes) ∧
        (p.react e).pump.Within UInt64.size := by
  intro p
  have books := ledgerAfter sink warnDepth events
  have peaked : p.Peaked := peakedAfter (newLatched _ warnDepth) (peakedNew _ warnDepth) events
  refine ⟨ledgerBalances books peaked, fun e few small => ?_⟩
  have length : (arrivals events ++ e.arrivals).length < UInt64.size := by
    have arrived := arrivalsLength (events ++ [e])
    rw [arrivalsAppend, arrivalsOne] at arrived
    exact Nat.lt_of_le_of_lt arrived few
  rw [arrivalsAppend, arrivalsOne] at small
  refine ⟨fun calls => ?_, ?_⟩
  · have entered := ledgerEnter books (callsExpected calls)
    exact ⟨ledgerWithin entered (peakedEnter peaked e) length small,
      fun _ _ => Backlog.popBytes entered.exact⟩
  · exact ledgerWithin (ledgerReact books e) (peakedReact books.latched peaked e) length small

theorem countersConservedRefused :
    let events : List Event :=
      [.arrived ⟨⟨#[1]⟩⟩, .sinkReady, .arrived ⟨⟨#[2, 3]⟩⟩, .arrived ⟨⟨#[4, 5, 6]⟩⟩]
    let p := (observed ({ cues := [.refuse .closed] } : Script) 1).after events
    (events ++ [Event.completed]).length < UInt64.size ∧
      totalSize (arrivals (events ++ [.completed])) < UInt64.size ∧ p.Calls .completed ∧
      p.stats.Balances [⟨⟨#[4, 5, 6]⟩⟩] [⟨⟨#[1]⟩⟩] ∧ (p.react .completed).pump.Within UInt64.size ∧
      ∀ segment rest, (p.enter .completed).pump.backlog.pop = (.ok segment, rest) →
        rest.bytes + segment.size = 3 := by
  intro events p
  have few : (events ++ [Event.completed]).length < UInt64.size := by decide
  have small : totalSize (arrivals (events ++ [.completed])) < UInt64.size := by decide
  have calls : p.Calls .completed := show p.slot = .inFlight by decide
  obtain ⟨balances, bounds⟩ := countersConserved ({ cues := [.refuse .closed] } : Script) 1 events
  have waiting : p.waiting = [⟨⟨#[4, 5, 6]⟩⟩] := by decide
  have refused : p.sink.refused = [⟨⟨#[1]⟩⟩] := by decide
  obtain ⟨popped, within⟩ := bounds .completed few small
  exact ⟨few, small, calls, waiting ▸ refused ▸ balances, within, (popped calls).2⟩

end Pump
end SegmentPump
