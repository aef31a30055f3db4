import SegmentPump.Proofs.Simulation.Stage

/-! The turns of the worker of a simulated session. The command that drains it
sets the owner going again, the shutdown finds it drained, and from then on it is
`Served`: what is left to do is for the owner to hear of it and for the sink to
stop. -/
namespace SegmentPump

structure Stats.Complete (feed : List Segment) (s : Stats) : Prop extends Settled s where
  received : s.segmentsReceived = feed.length
  bytesReceived : s.bytesReceived = totalSize feed
  peak : s.peakQueueDepth ≤ feed.length
  ready : feed ≠ [] → s.sinkReady = true

namespace World

variable {feed : List Segment} {w next : World} {c : Command} {rest : List Command}

structure Heeds (w next : World) (c : Command) (rest : List Command) : Prop where
  mail : next.mail = rest
  owner : next.owner = w.owner
  fed : next.feed = w.feed
  phase : next.receiver.phase = w.receiver.phase
  calls : next.session.nextTicket = w.session.nextTicket
  pump : next.pump = w.session.worker.pumped c
  waiters : next.waiters =
    (Worker.tell (w.waiters ++ c.waiter) (w.session.worker.pumped c) none).2
  answers : next.answers = w.answers ++ (c.reply w.pump.stats ++
    (Worker.tell (w.waiters ++ c.waiter) (w.session.worker.pumped c) none).1)

theorem heeds (on : w.session.worker.verdict c = none)
    (same : next = { w with
      session := { w.session with mailbox := .ofList rest }.absorb (w.session.worker.handle c) }) :
    Heeds w next c rest := by
  have turn := w.session.worker.handled c
  rw [on] at turn
  subst same
  refine ⟨?_, rfl, rfl, rfl, rfl, turn.pump, turn.waiters, ?_⟩
  · simp [mail, Session.absorb, turn.ending]
  · rw [answers, Session.absorb, Line.toListAppend, turn.answers]
    rfl

theorem quietDrained (latched : w.pump.Latched) {sign : Signal} (drained : w.pump.drained = true) :
    (w.session.worker.pumped (.signal sign)).drained = true := by
  rcases w.session.worker.pumpedWays (.signal sign) with ⟨_, same⟩ | ⟨e, arrivals, same⟩
  · rw [same]
    exact drained
  · rw [same]
    exact Pump.drainedReact latched arrivals drained

theorem uncalled (empty : tickets (c :: rest) = []) : c.ticket? = .none ∧ tickets rest = [] := by
  cases ticket : c.ticket? with
  | none => exact ⟨rfl, by simpa [tickets, ticket] using empty⟩
  | some _ => simp [tickets, ticket] at empty

theorem heedsNobody (heeds : Heeds w next c rest) (uncalled : c.ticket? = none)
    (waiters : w.waiters = []) : next.waiters = [] ∧ next.answers = w.answers := by
  have silent : c.waiter = [] ∧ c.reply w.pump.stats = [] := by
    rcases c with _ | _ | _ <;> first | exact ⟨rfl, rfl⟩ | cases uncalled
  have waiters' := heeds.waiters
  have answers' := heeds.answers
  rw [waiters, silent.1, List.append_nil, Worker.tellNobody] at waiters' answers'
  rw [silent.2, List.append_nil, List.append_nil] at answers'
  exact ⟨waiters', answers'⟩

theorem stageTold (heeds : Heeds w next c rest) (owner : w.owner = .draining 0) (fed : w.feed = [])
    (signals : Signals rest) (calls : w.session.nextTicket = 1) (answers : w.answers = [])
    (reply : c.reply w.pump.stats = []) (waiters : w.waiters ++ c.waiter = [0]) : Stage next := by
  have owner := heeds.owner.trans owner
  have fed := heeds.fed.trans fed
  have signals : Signals next.mail := heeds.mail ▸ signals
  have calls := heeds.calls.trans calls
  have waiters' := heeds.waiters
  have answers' := heeds.answers
  rw [waiters, Worker.tellOne] at waiters' answers'
  rw [answers, reply, List.nil_append, List.nil_append] at answers'
  cases drained : (w.session.worker.pumped c).drained with
  | true =>
    rw [if_pos drained] at waiters' answers'
    exact .drained owner fed signals calls waiters' answers' (heeds.pump ▸ drained)
  | false =>
    rw [if_neg (by simp [drained])] at waiters' answers'
    exact .waiting owner fed signals calls waiters' answers'

theorem stageHeeds (stage : Stage w) (latched : w.pump.Latched) (head : w.mail = c :: rest)
    (runs : c.stops = false) (heeds : Heeds w next c rest) : Stage next := by
  cases stage with
  | feeding owner mail calls waiters answers =>
    obtain ⟨silent, later⟩ := uncalled (head ▸ mail)
    obtain ⟨waiters', same⟩ := heedsNobody heeds silent waiters
    exact .feeding (heeds.owner.trans owner) (heeds.mail.symm ▸ later) (heeds.calls.trans calls)
      waiters' (same.trans answers)
  | @asked before _ owner fed mail quiet signals calls waiters answers =>
    rw [head] at mail
    -- The worker comes to the owner's call, or to what was mailed before it.
    cases before with
    | nil =>
      obtain ⟨rfl, rfl⟩ := List.cons.inj mail
      exact stageTold heeds owner fed signals calls answers rfl (by rw [waiters]; rfl)
    | cons first before =>
      obtain ⟨rfl, later⟩ := List.cons.inj mail
      obtain ⟨silent, quiet⟩ := uncalled quiet
      obtain ⟨waiters', same⟩ := heedsNobody heeds silent waiters
      exact .asked (heeds.owner.trans owner) (heeds.fed.trans fed) (heeds.mail.trans later) quiet
        signals (heeds.calls.trans calls) waiters' (same.trans answers)
  | waiting owner fed signals calls waiters answers =>
    obtain ⟨⟨sign, rfl⟩, later⟩ := List.forall_mem_cons.mp (head ▸ signals)
    exact stageTold heeds owner fed later calls answers rfl (by rw [waiters]; rfl)
  | drained owner fed signals calls waiters answers drained =>
    obtain ⟨⟨sign, rfl⟩, later⟩ := List.forall_mem_cons.mp (head ▸ signals)
    obtain ⟨waiters', same⟩ := heedsNobody heeds rfl waiters
    exact .drained (heeds.owner.trans owner) (heeds.fed.trans fed) (heeds.mail.symm ▸ later)
      (heeds.calls.trans calls) waiters' (same.trans answers)
      (heeds.pump.symm ▸ quietDrained latched drained)
  | @closing before _ _ owner fed mail signals waiters answers drained =>
    rw [head] at mail
    cases before with
    | nil =>
      obtain ⟨rfl, _⟩ := List.cons.inj mail
      cases runs
    | cons first before =>
      obtain ⟨rfl, later⟩ := List.cons.inj mail
      obtain ⟨⟨sign, rfl⟩, quiet⟩ := List.forall_mem_cons.mp signals.1
      obtain ⟨waiters', same⟩ := heedsNobody heeds rfl waiters
      exact .closing (heeds.owner.trans owner) (heeds.fed.trans fed) (heeds.mail.trans later)
        ⟨quiet, signals.2⟩ waiters' (same.trans answers) (heeds.pump.symm ▸ quietDrained latched drained)

theorem pumpedReceived {worker : Worker Channel} (latched : worker.pump.Latched) (c : Command) :
    (worker.pumped c).counters.segmentsReceived =
        worker.pump.counters.segmentsReceived + c.segment?.toList.length ∧
      (worker.pumped c).counters.bytesReceived =
        worker.pump.counters.bytesReceived + totalSize c.segment?.toList := by
  rcases worker.pumpedWays c with ⟨silent, same⟩ | ⟨e, arrivals, same⟩
  · rw [same, silent]
    exact ⟨rfl, rfl⟩
  · rw [same, ← arrivals]
    exact Pump.receivedReact latched e

theorem underwayTurn (underway : Underway feed w) (head : w.mail = c :: rest)
    (runs : c.stops = false)
    (same : next = { w with
      session := { w.session with mailbox := .ofList rest }.absorb (w.session.worker.handle c) }) :
    Underway feed next := by
  have latched := underway.connected.latched
  have turn := w.session.worker.handled c
  have flows := flowsTurn underway.toFlows head runs turn same
  obtain ⟨on, _⟩ := pumpedFlows underway.connected runs (flowsExpects underway.toFlows head)
  have heeds := heeds on same
  refine { toFlows := flows, alert := ?alert, heralded := ?heralded, counted := ?counted
           stage := stageHeeds underway.stage latched head runs heeds }
  case alert =>
    rw [same]
    exact Worker.alertTurn underway.alert.intact (turn.ending.trans on)
  case heralded =>
    rw [heeds.phase, heeds.mail, heeds.pump, Worker.pumpedReady latched]
    rcases underway.heralded with opening | mailed | ready
    · exact .inl opening
    · rw [head] at mailed
      rcases List.mem_cons.mp mailed with rfl | later
      · exact .inr (.inr (Bool.or_true _))
      · exact .inr (.inl later)
    · rw [World.pump] at ready
      exact .inr (.inr (by simp [ready]))
  case counted =>
    obtain ⟨got, whole, segments, bytes⟩ := underway.counted
    obtain ⟨segments', bytes'⟩ := pumpedReceived latched c
    refine ⟨got ++ c.segment?.toList, ?_, ?_, ?_⟩
    · rw [heeds.mail, heeds.fed, ← whole, head, mailedCons]
      simp only [List.append_assoc]
    · rw [heeds.pump, segments', List.length_append, ← segments]
      rfl
    · rw [heeds.pump, bytes', totalSizeAppend, ← bytes]
      rfl

structure Served (feed : List Segment) (w : World) : Prop where
  stopped : ∃ stats, w.session.ending = some (.stopped stats) ∧ stats.Complete feed
  told : w.session.outcome 1 = some (.ok .done)
  owner : w.owner = .closing 1 ∨ w.owner = .finished
  idle : w.receiver.phase.held = []
  piped : w.pump.piped = []
  accepted : w.receiver.accepted.toList.map some = feed.map Segment.sequence?

theorem drainedFlows (flows : Flows feed w) (drained : w.pump.drained = true) :
    w.pump.waiting = [] ∧ w.pump.piped = [] ∧ w.receiver.phase.held = [] := by
  obtain ⟨empty, idle⟩ := (Pump.drainedIff _).mp drained
  have balance := flows.balance
  rw [tokens, idle, Slot.load] at balance
  exact ⟨empty, List.length_eq_zero_iff.mp (by omega), List.length_eq_zero_iff.mp (by omega)⟩

theorem completeStats (underway : Underway feed w) (drained : w.pump.drained = true)
    (mail : w.mail.filterMap Command.segment? = []) (fed : w.feed = []) :
    w.pump.stats.Complete feed := by
  have tallied := underway.alert.intact.toTallied
  have settled := Pump.drainedSettled tallied drained
  obtain ⟨got, whole, segments, bytes⟩ := underway.counted
  rw [mail, fed, List.append_nil, List.append_nil] at whole
  subst whole
  refine { toSettled := settled, received := segments, bytesReceived := bytes, peak := ?_, ready := ?_ }
  · exact segments ▸ tallied.peak
  · intro nonempty
    by_contra unset
    -- Appends wait for readiness, so that all of the feed would still be waiting.
    have appended : w.pump.counters.segmentsAppended = 0 :=
      tallied.gated (Bool.eq_false_iff.mpr unset)
    have length : got.length = 0 := by
      rw [← segments, ← appended]
      exact settled.appended.symm
    exact nonempty (List.length_eq_zero_iff.mp length)

theorem stageStops (stage : Stage w) (head : w.mail = c :: rest) (stops : c.stops = true) :
    c = .query 1 .shutdown ∧ Signals rest ∧ w.owner = .closing 1 ∧ w.feed = [] ∧
      w.pump.drained = true ∧ ∃ answer, w.answers = [(0, answer)] := by
  obtain ⟨ticket, rfl⟩ := Command.stopsShutdown stops
  cases stage with
  | feeding _ mail => cases (uncalled (head ▸ mail)).1
  | @asked before _ _ _ mail quiet =>
    rw [head] at mail
    cases before with
    | nil => cases (List.cons.inj mail).1
    | cons first before =>
      obtain ⟨rfl, _⟩ := List.cons.inj mail
      cases (uncalled quiet).1
  | waiting _ _ signals | drained _ _ signals =>
    obtain ⟨⟨sign, same⟩, _⟩ := List.forall_mem_cons.mp (head ▸ signals)
    cases same
  | @closing before _ answer owner fed mail signals _ answers drained =>
    rw [head] at mail
    cases before with
    | nil =>
      obtain ⟨same, rfl⟩ := List.cons.inj mail
      exact ⟨same, signals.2, owner, fed, drained, answer, answers⟩
    | cons first before =>
      obtain ⟨rfl, _⟩ := List.cons.inj mail
      obtain ⟨⟨sign, same⟩, _⟩ := List.forall_mem_cons.mp signals.1
      cases same

theorem servedShutdown (underway : Underway feed w) (head : w.mail = c :: rest)
    (stops : c.stops = true)
    (same : next = { w with
      session := { w.session with mailbox := .ofList rest }.absorb (w.session.worker.handle c) }) :
    Served feed next := by
  obtain ⟨rfl, signals, owner, fed, drained, answer, answers⟩ :=
    stageStops underway.stage head stops
  obtain ⟨waiting, piped, held⟩ := drainedFlows underway.toFlows drained
  have turn := w.session.worker.handled (.query 1 .shutdown)
  have mail : w.mail.filterMap Command.segment? = [] := by
    rw [head, mailedCons, (signalsSilent signals).2]
    rfl
  have order := underway.order
  rw [numbers, afloat, waiting, piped, held, mail, fed] at order
  subst same
  refine ⟨⟨w.pump.stats, turn.ending, completeStats underway drained mail fed⟩, ?_, .inl owner, held,
    ?_, by simpa using order⟩
  · rw [Session.outcome, Session.absorb, Line.toListAppend, turn.answers]
    rw [World.answers] at answers
    simp only [answers]
    rfl
  · rw [pump, Session.absorb, turn.pump]
    exact piped

theorem underwayServe (underway : Underway feed w) (moved : w.serve = some next) :
    Underway feed next ∨ Served feed next := by
  obtain ⟨c, rest, head, same⟩ := serveRunning underway.running moved
  cases stops : c.stops with
  | false => exact .inl (underwayTurn underway head stops same)
  | true => exact .inr (servedShutdown underway head stops same)

theorem servedMove (served : Served feed w) {m : Move} (moved : w.move? m = some next) :
    Served feed next := by
  obtain ⟨⟨stats, ended, complete⟩, told, owner, idle, piped, accepted⟩ := served
  cases m with
  | deliver | askDrained | askShutdown | interrupt =>
    rcases owner with owner | owner <;>
      simp [move?, deliver, askDrained, askShutdown, interrupt, owner] at moved
  | conclude =>
    rcases owner with owner | owner <;> simp [move?, conclude, owner, told] at moved
    subst moved
    exact ⟨⟨stats, ended, complete⟩, told, .inr rfl, idle, piped, accepted⟩
  | serve => simp [move?, serve, Session.isRunning, ended] at moved
  | openSink =>
    cases phase : w.receiver.phase <;> simp [move?, openSink, phase] at moved
    subst moved
    rw [report, Session.sendClosed ended]
    exact ⟨⟨stats, ended, complete⟩, told, owner, rfl, piped, accepted⟩
  | take =>
    have line : w.channel.pending = .ofList w.pump.piped := (Line.ofListToList _).symm
    cases phase : w.receiver.phase <;> simp only [move?, take, phase] at moved
    case waiting =>
      simp [Channel.receive, line, piped, Session.isRunning, ended] at moved
      subst moved
      exact ⟨⟨stats, ended, complete⟩, told, owner, rfl, piped, accepted⟩
    all_goals cases moved
  | accept =>
    cases phase : w.receiver.phase <;> simp [move?, accept, phase] at moved
    rw [phase] at idle
    cases idle

theorem underwayMove (numbered : ∀ segment ∈ feed, segment.sequence? ≠ none)
    (underway : Underway feed w) {m : Move} (on : m ≠ .interrupt) (moved : w.move? m = some next) :
    Underway feed next ∨ Served feed next := by
  cases m with
  | deliver => exact .inl (underwayDeliver underway moved)
  | askDrained => exact .inl (underwayAskDrained underway moved)
  | askShutdown => exact .inl (underwayAskShutdown underway moved)
  | interrupt => exact absurd rfl on
  | conclude =>
    rw [move?, underwayConclude underway] at moved
    cases moved
  | serve => exact underwayServe underway moved
  | openSink => exact .inl (underwayOpenSink underway moved)
  | take => exact .inl (underwayTake underway moved)
  | accept => exact .inl (underwayAccept numbered underway moved)

inductive Onward (start : World) : World → Prop where
  | start : Onward start start
  | move {w next : World} (m : Move) (reached : Onward start w) (on : m ≠ .interrupt)
      (moved : w.move? m = some next) : Onward start next

theorem onwardStages {warnDepth : Nat} (numbered : ∀ segment ∈ feed, segment.sequence? ≠ none)
    (reached : Onward (World.new feed warnDepth) w) : Underway feed w ∨ Served feed w := by
  induction reached with
  | start => exact .inl (underwayNew feed warnDepth)
  | move m _ on moved ih =>
    rcases ih with underway | served
    · exact underwayMove numbered underway on moved
    · exact .inr (servedMove served moved)

end World
end SegmentPump
