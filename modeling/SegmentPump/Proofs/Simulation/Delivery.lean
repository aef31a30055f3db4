import SegmentPump.Proofs.Simulation.Clock
import SegmentPump.Proofs.Simulation.Numbering

/-! A simulated session delivers all it is fed, in whatever order its parties
move. Until it is over somebody can move, and since every move leaves less work
it comes to its end, so that the clock, the delays and the warning depth have a
say only in how long the backlog gets and in how long it all takes. -/
namespace SegmentPump

structure Delivered (feed : List Segment) (r : Report) : Prop where
  accepted : r.accepted = List.range feed.length
  inOrder : r.deliveredInOrder = true
  stats : r.stats.Complete feed

namespace World

variable {feed : List Segment} {w : World}

def Movable (w : World) : Prop := ∃ m, m ≠ .interrupt ∧ w.move? m ≠ none

theorem mailMovable (running : w.session.ending = none) (mail : w.mail ≠ []) : w.Movable := by
  refine ⟨.serve, by decide, ?_⟩
  have mailed : w.session.mailbox.isEmpty = false := by
    rw [Line.isEmpty, Line.sizeToList, beq_eq_false_iff_ne]
    exact fun empty => mail (List.length_eq_zero_iff.mp empty)
  simp [move?, serve, Session.isRunning, running, mailed]

/- The owner waits and nothing is mailed. If the sink had nothing to take either,
no append would be under way, and the pump, which is not drained, would begin one. -/
theorem waitingMovable (underway : Underway feed w) (mail : w.mail = [])
    (undrained : w.pump.drained = false) : w.Movable := by
  cases phase : w.receiver.phase with
  | stopped => exact absurd phase underway.going
  | opening => exact ⟨.openSink, by decide, by simp [move?, openSink, phase]⟩
  | holding segment => exact ⟨.accept, by decide, by simp [move?, accept, phase]⟩
  | waiting =>
    cases piped : w.pump.piped with
    | cons segment rest =>
      refine ⟨.take, by decide, ?_⟩
      have line : w.channel.pending = .ofList (segment :: rest) := by
        rw [← piped]
        exact (Line.ofListToList _).symm
      simp [move?, take, phase, Channel.receive, line]
    | nil =>
      have balance := underway.balance
      have idle : w.pump.slot = .idle := by
        rw [tokens, piped, phase, mail] at balance
        cases slot : w.pump.slot with
        | idle => rfl
        | inFlight => rw [slot] at balance; cases balance
      have ready : w.pump.ready = true := by
        rcases underway.heralded with opening | mailed | ready
        · rw [phase] at opening; cases opening
        · rw [mail] at mailed; cases mailed
        · exact ready
      have empty : w.pump.waiting = [] := underway.alert.intact.worked ⟨ready, idle⟩
      rw [(Pump.drainedIff _).mpr ⟨empty, idle⟩] at undrained
      cases undrained

theorem underwayMovable (underway : Underway feed w) : w.Movable := by
  by_cases mail : w.mail = []
  case neg => exact mailMovable underway.running mail
  case pos =>
    cases underway.stage with
    | feeding owner =>
      cases fed : w.feed with
      | nil => exact ⟨.askDrained, by decide, by simp [move?, askDrained, owner, fed]⟩
      | cons segment rest => exact ⟨.deliver, by decide, Timing.deliverPossible owner fed⟩
    | asked _ _ mailed => simp [mail] at mailed
    | closing _ _ mailed => simp [mail] at mailed
    | waiting _ _ _ _ waiters =>
      have waits : w.session.worker.waiters ≠ [] := by
        rw [show w.session.worker.waiters = [0] from waiters]
        exact List.cons_ne_nil _ _
      exact waitingMovable underway mail (underway.alert.patient waits)
    | @drained answer owner _ _ _ _ answers =>
      refine ⟨.askShutdown, by decide, ?_⟩
      have known : w.session.outcome 0 = some (.ok answer) := by
        rw [Session.outcome, ← World.answers, answers]
        rfl
      simp [move?, askShutdown, owner, known]

theorem servedMovable (served : Served feed w) : w.Movable ∨ w.owner = .finished := by
  rcases served.owner with owner | owner
  · exact .inl ⟨.conclude, by decide, by simp [move?, conclude, owner, served.told]⟩
  · exact .inr owner

theorem servedDelivered (numbers : feed.map Segment.sequence? = (List.range feed.length).map some)
    (served : Served feed w) (finished : w.owner = .finished) (seed : UInt64) (c : Clock) :
    ∃ report, Settings.judge seed c w = .ok report ∧ report.seed = seed ∧ Delivered feed report := by
  obtain ⟨stats, ended, complete⟩ := served.stopped
  have accepted : w.receiver.accepted.toList = List.range feed.length :=
    (List.map_inj_right fun _ _ => Option.some.inj).mp (served.accepted.trans numbers)
  have join : w.session.join = some (.ok stats) := by rw [Session.join, ended]; rfl
  refine ⟨⟨seed, stats, w.receiver.accepted.toList, c.now * nanosPerMilli⟩, ?_, rfl, accepted, ?_,
    complete⟩
  · simp [Settings.judge, finished, join]
  · simp [Report.deliveredInOrder, accepted, complete.received]

theorem everyOrderDelivers {warnDepth : Nat}
    (numbers : feed.map Segment.sequence? = (List.range feed.length).map some)
    (reached : Onward (World.new feed warnDepth) w) :
    w.Movable ∨
      ∀ seed c, ∃ report, Settings.judge seed c w = .ok report ∧ report.seed = seed ∧
        Delivered feed report := by
  rcases onwardStages (Segment.rangeNumbered numbers) reached with underway | served
  · exact .inl (underwayMovable underway)
  · rcases servedMovable served with movable | finished
    · exact .inl movable
    · exact .inr (servedDelivered numbers served finished)

end World

namespace Settings

structure SameLoad (s other : Settings) : Prop where
  seed : other.seed = s.seed
  segmentCount : other.segmentCount = s.segmentCount
  minSegmentSize : other.minSegmentSize = s.minSegmentSize
  maxSegmentSize : other.maxSegmentSize = s.maxSegmentSize

/- No sizes are drawn for no segments. -/
def Sized (s : Settings) : Prop :=
  s.segmentCount = 0 ∨ s.maxSegmentSize < 18446744073709551615

theorem segmentsSized {s : Settings} (sized : s.Sized) (generator : Generator) :
    ∃ feed, s.segments generator = .ok feed ∧ feed.length = s.segmentCount.toNat ∧
      feed.map Segment.sequence? = (List.range feed.length).map some := by
  rcases sized with zero | bounded
  · refine ⟨[], ?_, by rw [zero]; rfl, rfl⟩
    rw [segments, zero]
    rfl
  · obtain ⟨feed, drawn, numbers⟩ := s.segmentsNumbered bounded generator
    have length : feed.length = s.segmentCount.toNat := by
      simpa using congrArg List.length numbers
    exact ⟨feed, drawn, length, length ▸ numbers⟩

theorem simulated {s : Settings} (valid : s.validate = .ok ()) (drawn : UInt64)
    {feed : List Segment} (fed : s.segments (.ofSeed (s.seed.getD drawn)) = .ok feed)
    (numbers : feed.map Segment.sequence? = (List.range feed.length).map some) :
    ∃ report log, s.simulate drawn = .ok (report, log) ∧ report.seed = s.seed.getD drawn ∧
      Delivered feed report := by
  let begun := World.new feed s.queueWarnDepth.toNat
  obtain ⟨reached, stuck⟩ := Timing.runOnward (t := s.timing) rfl begun
  rcases World.everyOrderDelivers numbers reached with ⟨m, on, possible⟩ | delivers
  · exact absurd (stuck m on) possible
  · obtain ⟨report, judged, seed, delivered⟩ := delivers (s.seed.getD drawn) (s.timing.run begun).1
    refine ⟨report, (s.timing.run begun).2.session.log.toList, ?_, seed, delivered⟩
    simp only [simulate, valid, fed, begun, judged]

theorem sameSegments {s other : Settings} (same : SameLoad s other) :
    other.segments = s.segments := by
  funext generator
  rw [segments, segments, source, source, sizes, sizes, same.segmentCount, same.minSegmentSize,
    same.maxSegmentSize]

end Settings

namespace Settings

/- What sessions with the load of `s` report alike. The peak tells how far the sink
fell behind, and readiness tells of the timing when nothing was sent: an append has
to wait for it. -/
structure Alike (s : Settings) (r other : Report) : Prop where
  seed : other.seed = r.seed
  accepted : other.accepted = r.accepted
  stats :
    { other.stats with
      peakQueueDepth := r.stats.peakQueueDepth
      sinkReady := r.stats.sinkReady } = r.stats
  ready : s.segmentCount ≠ 0 → other.stats.sinkReady = r.stats.sinkReady

variable {s : Settings} {feed : List Segment}

theorem deliveredAlike (length : feed.length = s.segmentCount.toNat) {r other : Report}
    (seed : other.seed = r.seed) (left : Delivered feed r) (right : Delivered feed other) :
    s.Alike r other where
  seed := seed
  accepted := right.accepted.trans left.accepted.symm
  stats := by
    have received := right.stats.received.trans left.stats.received.symm
    have total := right.stats.bytesReceived.trans left.stats.bytesReceived.symm
    have appended : other.stats.segmentsAppended = r.stats.segmentsAppended :=
      right.stats.appended.trans (received.trans left.stats.appended.symm)
    have bytes : other.stats.bytesAppended = r.stats.bytesAppended :=
      right.stats.bytes.trans (total.trans left.stats.bytes.symm)
    have completions : other.stats.completions = r.stats.completions :=
      right.stats.completions.trans (received.trans left.stats.completions.symm)
    have depth : other.stats.queueDepth = r.stats.queueDepth :=
      right.stats.queueDepth.trans left.stats.queueDepth.symm
    have queued : other.stats.queuedBytes = r.stats.queuedBytes :=
      right.stats.queuedBytes.trans left.stats.queuedBytes.symm
    have slot : other.stats.slot = r.stats.slot := right.stats.slot.trans left.stats.slot.symm
    simp only [received, total, appended, bytes, completions, depth, queued, slot]
  ready := by
    intro counted
    have fed : feed ≠ [] := by
      rintro rfl
      exact counted (UInt64.toNat_inj.mp length.symm)
    exact (right.stats.ready fed).trans (left.stats.ready fed).symm

/- With the seed set nothing is left to the draw. The session of `s` itself is one
order of moves among all of them: with other delays the parties take turns in another
order, and a delay of any length only tells who is next. -/
theorem simulatedDelivers {seed : UInt64} (seeded : s.seed = some seed)
    (valid : s.validate = .ok ()) (sized : s.Sized) (drawn : UInt64) :
    ∃ feed report log, s.segments (.ofSeed seed) = .ok feed ∧
      feed.length = s.segmentCount.toNat ∧ s.simulate drawn = .ok (report, log) ∧
      report.seed = seed ∧ Delivered feed report ∧
      (∀ other drawn', SameLoad s other → other.validate = .ok () →
        ∃ report' log', other.simulate drawn' = .ok (report', log') ∧ s.Alike report report') ∧
      ∀ warnDepth w, World.Onward (.new feed warnDepth) w →
        (∀ m next, w.move? m = some next → next.work < w.work) ∧
        ((∃ m, m ≠ .interrupt ∧ w.move? m ≠ none) ∨
          ∀ c, ∃ report', judge seed c w = .ok report' ∧ Delivered feed report' ∧
            s.Alike report report') := by
  obtain ⟨feed, fed, length, numbers⟩ := segmentsSized sized (.ofSeed seed)
  have drawnAs {other : Settings} (same : other.seed = some seed) (drawn : UInt64) :
      other.seed.getD drawn = seed := by rw [same]; rfl
  obtain ⟨report, log, ran, known, delivered⟩ :=
    simulated valid drawn ((drawnAs seeded drawn).symm ▸ fed) numbers
  rw [drawnAs seeded] at known
  refine ⟨feed, report, log, fed, length, ran, known, delivered, fun other drawn' same valid' => ?_,
    fun warnDepth w reached => ⟨fun m next => World.moveWork, ?_⟩⟩
  · have seeded' := same.seed.trans seeded
    have fed' : other.segments (.ofSeed (other.seed.getD drawn')) = .ok feed := by
      rw [drawnAs seeded', sameSegments same, fed]
    obtain ⟨report', log', ran', known', delivered'⟩ := simulated valid' drawn' fed' numbers
    rw [drawnAs seeded', ← known] at known'
    exact ⟨report', log', ran', deliveredAlike length known' delivered delivered'⟩
  · refine (World.everyOrderDelivers numbers reached).imp_right fun delivers c => ?_
    obtain ⟨report', judged, known', delivered'⟩ := delivers seed c
    exact ⟨report', judged, delivered',
      deliveredAlike length (known'.trans known.symm) delivered delivered'⟩

theorem simulatedDeliversTesting :
    let slow : Settings := { testing with
      queueWarnDepth := 1, sinkOpenDelay := 1000, appendLatency := 0, segmentInterval := 7 }
    testing.validate = .ok () ∧ slow.validate = .ok () ∧
      ∃ report log report' log', testing.simulate 0 = .ok (report, log) ∧
        report.accepted = List.range 16 ∧ slow.simulate 1 = .ok (report', log') ∧
        report'.accepted = report.accepted := by
  intro slow
  have valid : testing.validate = .ok () := by decide
  have valid' : slow.validate = .ok () := by decide
  have sized : testing.Sized := .inr (by decide)
  obtain ⟨feed, report, log, _, length, ran, _, delivered, others, _⟩ :=
    simulatedDelivers (s := testing) rfl valid sized 0
  obtain ⟨report', log', ran', alike⟩ := others slow 1 ⟨rfl, rfl, rfl, rfl⟩ valid'
  have all : report.accepted = List.range 16 := by
    rw [delivered.accepted, length]
    rfl
  exact ⟨valid, valid', report, log, report', log', ran, all, ran', alike.accepted⟩

end Settings
end SegmentPump
