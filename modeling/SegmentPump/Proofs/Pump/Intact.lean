import SegmentPump.Proofs.Pump.Reaction

/-! A pump that has met no failure so far. What it received is what it appended
and what still waits, in segments and in bytes; every append but the one under
way is completed; and nothing waits before a free slot. Unlike the ledger this
asks nothing of the sink, so that it also holds where others reach into the
sink. -/
namespace SegmentPump

variable {σ : Type}

structure Stats.Settled (s : Stats) : Prop where
  queueDepth : s.queueDepth = 0
  queuedBytes : s.queuedBytes = 0
  slot : s.slot = .idle
  appended : s.segmentsAppended = s.segmentsReceived
  completions : s.completions = s.segmentsReceived
  bytes : s.bytesAppended = s.bytesReceived

namespace Pump

structure Tallied (p : Pump σ) : Prop where
  latched : p.Latched
  gated : p.ready = false → p.counters.segmentsAppended = 0
  exact : p.backlog.Exact
  segments : p.counters.segmentsReceived = p.counters.segmentsAppended + p.waiting.length
  bytes : p.counters.bytesReceived = p.counters.bytesAppended + totalSize p.waiting
  balance : p.counters.segmentsAppended = p.counters.completions + p.slot.load
  peak : p.counters.peakDepth ≤ p.counters.segmentsReceived

structure Intact (p : Pump σ) : Prop extends Tallied p where
  worked : p.Clear → p.waiting = []

variable {p : Pump σ}

theorem intactNew (sink : σ) (warnDepth : Nat) : (new sink warnDepth).Intact where
  latched busy := nomatch busy
  gated _ := rfl
  exact := Backlog.exactEmpty
  segments := rfl
  bytes := rfl
  balance := rfl
  peak := Nat.le_refl 0
  worked _ := rfl

theorem intactMap (intact : p.Intact) (f : σ → σ) : (p.mapSink f).Intact :=
  { intact with }

theorem talliedReceive (tallied : p.Tallied) (segment : Segment) :
    (p.receive segment).pump.Tallied := by
  have waiting : (p.receive segment).pump.waiting = p.waiting ++ [segment] :=
    enterWaiting p (.arrived segment)
  have segments := tallied.segments
  have bytes := tallied.bytes
  refine { latched := tallied.latched, gated := tallied.gated
           exact := Backlog.exactPush tallied.exact segment, segments := ?_, bytes := ?_
           balance := tallied.balance, peak := ?_ }
  · rw [waiting, List.length_append, List.length_singleton]
    simp only [receive]
    omega
  · rw [waiting, totalSizeAppend, totalSizeCons, totalSizeNil]
    simp only [receive]
    omega
  · have peak := tallied.peak
    simp only [receive, pushDepth]
    omega

theorem talliedRelease (tallied : p.Tallied) (busy : p.slot = .inFlight) : p.release.Tallied where
  latched idle := nomatch idle
  gated := tallied.gated
  exact := tallied.exact
  segments := tallied.segments
  bytes := tallied.bytes
  balance := by
    have balance := tallied.balance
    rw [busy, Slot.load] at balance
    simpa [release, Slot.load] using balance
  peak := tallied.peak

theorem talliedEnter (tallied : p.Tallied) {e : Event} (expected : p.Expects e) :
    (p.enter e).pump.Tallied := by
  cases e with
  | arrived segment => exact talliedReceive tallied segment
  | sinkReady => exact { tallied with latched := fun _ => rfl, gated := nofun }
  | completed => exact talliedRelease tallied (expected rfl)

theorem talliedFill (tallied : p.Tallied) (clear : p.Clear) {segment : Segment}
    {rest : List Segment} (head : p.waiting = segment :: rest) (sink : σ) :
    ((p.handOver segment rest sink).fill segment).pump.Tallied := by
  have waiting : ((p.handOver segment rest sink).fill segment).pump.waiting = rest :=
    waitingHandOver p segment rest sink
  have segments := tallied.segments
  have bytes := tallied.bytes
  have balance := tallied.balance
  rw [head, List.length_cons] at segments
  rw [head, totalSizeCons] at bytes
  rw [clear.2, Slot.load] at balance
  refine { latched := fun _ => clear.1, gated := ?_, exact := Backlog.exactRest tallied.exact head
           segments := ?_, bytes := ?_, balance := ?_, peak := tallied.peak }
  · intro unset
    exact absurd (clear.1.symm.trans unset) (by decide)
  · rw [waiting]
    simp only [fill, handOver]
    omega
  · rw [waiting]
    simp only [fill, handOver]
    omega
  · simp only [fill, handOver, Slot.load]
    omega

theorem drainedSettled (tallied : p.Tallied) (drained : p.drained = true) : p.stats.Settled := by
  obtain ⟨empty, idle⟩ := (drainedIff p).mp drained
  have segments := tallied.segments
  have bytes := tallied.bytes
  have balance := tallied.balance
  rw [empty] at segments bytes
  rw [idle, Slot.load] at balance
  constructor
  case queueDepth => exact (Backlog.sizeToList p.backlog).trans (congrArg List.length empty)
  case queuedBytes => exact tallied.exact.trans (congrArg totalSize empty)
  case slot => exact idle
  case appended => exact segments.symm
  case completions => exact balance.symm.trans segments.symm
  case bytes => exact bytes.symm

variable [Sink σ]

/- A refusal loses the segment that was offered, so that only a step without a
failure keeps the sums. -/
theorem intactReact (intact : p.Intact) {e : Event} (ok : (p.react e).result = .ok ()) :
    (p.react e).pump.Intact := by
  have worked := reactConserves intact.latched ok
  have way := applied intact.latched e
  rw [reactResult] at ok
  rw [reactPump] at worked ⊢
  generalize p.apply e = s at way ok worked ⊢
  refine { toTallied := ?_, worked }
  cases way with
  | unexpected => cases ok
  | held expected => exact talliedEnter intact.toTallied expected
  | advanced expected clear advance =>
    have entered := talliedEnter intact.toTallied expected
    cases advance with
    | rest => exact entered
    | offer head answer =>
      obtain ⟨rfl, _⟩ := concludeOk ok
      exact talliedFill entered clear head _

theorem receivedReact (latched : p.Latched) (e : Event) :
    (p.react e).pump.counters.segmentsReceived =
        p.counters.segmentsReceived + e.arrivals.length ∧
      (p.react e).pump.counters.bytesReceived =
        p.counters.bytesReceived + totalSize e.arrivals := by
  have entered : (p.enter e).pump.counters.segmentsReceived =
        p.counters.segmentsReceived + e.arrivals.length ∧
      (p.enter e).pump.counters.bytesReceived =
        p.counters.bytesReceived + totalSize e.arrivals := by
    cases e <;> exact ⟨rfl, rfl⟩
  have way := applied latched e
  rw [reactPump]
  generalize p.apply e = s at way ⊢
  cases way with
  | unexpected event => subst event; exact ⟨rfl, rfl⟩
  | held => exact entered
  | advanced _ _ advance =>
    cases advance with
    | rest => exact entered
    | @offer _ _ reply => cases reply <;> exact entered

theorem drainedReact (latched : p.Latched) {e : Event} (silent : e.arrivals = [])
    (drained : p.drained = true) : (p.react e).pump.drained = true := by
  obtain ⟨empty, idle⟩ := (drainedIff p).mp drained
  have still : (p.enter e).pump.drained = true := by
    rw [drainedIff, enterWaiting, empty, silent]
    cases e with
    | arrived => cases silent
    | sinkReady => exact ⟨rfl, idle⟩
    | completed => exact ⟨rfl, rfl⟩
  have way := applied latched e
  rw [reactPump]
  generalize p.apply e = s at way ⊢
  cases way with
  | unexpected => exact drained
  | held => exact still
  | advanced _ _ advance =>
    cases advance with
    | rest => exact still
    | offer head =>
      rw [((drainedIff _).mp still).1] at head
      cases head

theorem reactReadyAgain (intact : p.Intact) (ready : p.ready = true) :
    (p.react .sinkReady).result = .ok () ∧ (p.react .sinkReady).pump = p := by
  have same : (p.enter .sinkReady).pump = p := by
    obtain ⟨sink, backlog, slot, latch, counters, warnDepth, armed⟩ := p
    cases show latch = true from ready
    rfl
  have way := applied intact.latched .sinkReady
  rw [reactResult, reactPump]
  generalize p.apply .sinkReady = s at way ⊢
  cases way with
  | unexpected event => cases event
  | held => exact ⟨enterResult p _, same⟩
  | advanced _ clear advance =>
    rw [same] at clear advance
    cases advance with
    | rest => exact ⟨rfl, rfl⟩
    | offer head answer =>
      rw [intact.worked clear] at head
      cases head

end Pump
end SegmentPump
