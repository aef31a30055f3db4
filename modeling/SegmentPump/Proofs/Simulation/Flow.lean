import SegmentPump.Proofs.Pump.Channel
import SegmentPump.Proofs.Session.History
import SegmentPump.Simulation.World

/-! What flows through a simulated session: segments on their way from the source
to the sink, and with each append under way one token, which is in the channel,
in the hands of the sink, or in the mailbox as a report. Every move keeps `Flows`
until a shutdown is handled. -/
namespace SegmentPump

def Receiver.Phase.held : Receiver.Phase → List Segment
  | .holding segment => [segment]
  | _ => []

namespace World

inductive Reachable (start : World) : World → Prop where
  | start : Reachable start start
  | move {w next : World} (m : Move) (reached : Reachable start w)
      (moved : w.move? m = some next) : Reachable start next

def pump (w : World) : Pump Channel := w.session.worker.pump

def mail (w : World) : List Command := w.session.mailbox.toList

def tokens (w : World) : Nat :=
  w.pump.piped.length + w.receiver.phase.held.length + w.mail.count (.signal .updateEnd)

def afloat (w : World) : List Segment :=
  w.receiver.phase.held ++ w.pump.piped ++ w.pump.waiting ++ w.mail.filterMap Command.segment?

def numbers (w : World) : List (Option Nat) :=
  w.receiver.accepted.toList.map some ++ w.afloat.map Segment.sequence?

def Shut (w : World) : Prop := ∃ ticket, (ticket, Answer.done) ∈ w.session.answers.toList

structure Flows (feed : List Segment) (w : World) : Prop where
  running : w.session.ending = none
  unshut : ¬ w.Shut
  going : w.receiver.phase ≠ .stopped
  trusting : ∀ error, w.owner ≠ .failed error
  connected : w.pump.Connected
  balance : w.tokens = w.pump.slot.load
  order : w.numbers ++ w.feed.map Segment.sequence? = feed.map Segment.sequence?
  left : w.feed <:+ feed

variable {feed : List Segment} {w next : World}

theorem flowsNew (feed : List Segment) (warnDepth : Nat) : Flows feed (World.new feed warnDepth) where
  running := rfl
  unshut shut := nomatch shut.choose_spec
  going := nofun
  trusting := nofun
  connected := ⟨rfl, nofun⟩
  balance := rfl
  order := rfl
  left := List.suffix_rfl

theorem flowsFrame (flows : Flows feed w)
    (session : next.session.ending = w.session.ending ∧ next.session.answers = w.session.answers)
    (going : next.receiver.phase ≠ .stopped) (trusting : ∀ error, next.owner ≠ .failed error)
    (connected : next.pump.Connected) (slot : next.pump.slot = w.pump.slot)
    (tokens : next.tokens = w.tokens)
    (order : next.numbers ++ next.feed.map Segment.sequence? =
      w.numbers ++ w.feed.map Segment.sequence?)
    (left : next.feed <:+ w.feed) : Flows feed next where
  running := session.1.trans flows.running
  unshut := by
    rintro ⟨ticket, member⟩
    rw [session.2] at member
    exact flows.unshut ⟨ticket, member⟩
  going
  trusting
  connected
  balance := by rw [tokens, slot, flows.balance]
  order := order.trans flows.order
  left := left.trans flows.left

theorem deliverRunning (running : w.session.ending = none) (moved : w.deliver = some next) :
    ∃ segment rest, w.owner = .feeding ∧ w.feed = segment :: rest ∧
      next = { w with
        feed := rest
        session := { w.session with mailbox := w.session.mailbox.push (.arrived segment) } } := by
  cases owner : w.owner <;> cases feed : w.feed <;>
    simp [deliver, owner, feed, Session.sendRunning running] at moved
  exact ⟨_, _, rfl, rfl, moved.symm⟩

theorem flowsDeliver (flows : Flows feed w) (moved : w.deliver = some next) : Flows feed next := by
  obtain ⟨segment, rest, _, head, rfl⟩ := deliverRunning flows.running moved
  refine flowsFrame flows ⟨rfl, rfl⟩ flows.going flows.trusting flows.connected rfl ?_ ?_ ?_
  · simp [tokens, pump, mail]
  · simp [numbers, afloat, mail, pump, head, Command.segment?]
  · rw [head]
    exact List.suffix_cons segment rest

theorem flowsAsk (flows : Flows feed w) (query : Query) {owner : Ticket → Owner}
    (trusting : ∀ ticket error, owner ticket ≠ .failed error) : Flows feed (w.ask query owner) := by
  rw [ask, Session.askRunning flows.running]
  refine flowsFrame flows ⟨rfl, rfl⟩ flows.going (trusting _) flows.connected rfl ?_ ?_
    List.suffix_rfl
  · simp [tokens, pump, mail, Session.retain]
  · simp [numbers, afloat, mail, pump, Session.retain, Command.segment?]

theorem outcomeRunning {s : Session Channel} (running : s.ending = none) {ticket : Ticket}
    {outcome : Except SessionError Answer} (known : s.outcome ticket = some outcome) :
    ∃ answer, outcome = .ok answer := by
  unfold Session.outcome at known
  split at known
  · exact ⟨_, (Option.some.inj known).symm⟩
  · simp [Session.isRunning, running] at known

theorem flowsAskDrained (flows : Flows feed w) (moved : w.askDrained = some next) :
    Flows feed next := by
  cases owner : w.owner <;> cases left : w.feed <;> simp [askDrained, owner, left] at moved
  rw [← moved]
  exact flowsAsk flows .waitDrained nofun

theorem flowsInterrupt (flows : Flows feed w) (moved : w.interrupt = some next) :
    Flows feed next := by
  cases owner : w.owner <;> cases left : w.feed <;> simp [interrupt, owner, left] at moved
  rw [← moved]
  exact flowsAsk flows .shutdown nofun

theorem flowsRelease (flows : Flows feed w) {owner : Owner} (trusting : ∀ error, owner ≠ .failed error) :
    Flows feed { w with session := w.session.release, owner } :=
  flowsFrame flows ⟨rfl, rfl⟩ flows.going trusting flows.connected rfl rfl rfl List.suffix_rfl

theorem flowsAskShutdown (flows : Flows feed w) (moved : w.askShutdown = some next) :
    Flows feed next := by
  cases owner : w.owner <;> simp [askShutdown, owner] at moved
  obtain ⟨outcome, known, rfl⟩ := moved
  obtain ⟨answer, rfl⟩ := outcomeRunning flows.running known
  exact flowsAsk (flowsRelease flows flows.trusting) .shutdown nofun

theorem flowsConclude (flows : Flows feed w) (moved : w.conclude = some next) : Flows feed next := by
  cases owner : w.owner <;> simp [conclude, owner] at moved
  obtain ⟨outcome, known, rfl⟩ := moved
  obtain ⟨answer, rfl⟩ := outcomeRunning flows.running known
  exact flowsRelease flows nofun

theorem reportRunning (running : w.session.ending = none) (sign : Signal) :
    w.report sign = { w with
      session := { w.session with mailbox := w.session.mailbox.push (.signal sign) }
      receiver := { w.receiver with phase := .waiting } } := by
  rw [report, Session.sendRunning running]

theorem flowsOpenSink (flows : Flows feed w) (moved : w.openSink = some next) : Flows feed next := by
  cases phase : w.receiver.phase <;> simp [openSink, phase] at moved
  rw [← moved, reportRunning flows.running]
  refine flowsFrame flows ⟨rfl, rfl⟩ nofun flows.trusting flows.connected rfl ?_ ?_ List.suffix_rfl
  · simp [tokens, pump, mail, phase, Receiver.Phase.held]
  · simp [numbers, afloat, mail, pump, phase, Receiver.Phase.held, Command.segment?]

theorem takeRunning (running : w.session.ending = none) (moved : w.take = some next) :
    ∃ segment rest, w.receiver.phase = .waiting ∧ w.pump.piped = segment :: rest ∧
      next = { w with
        session := w.session.mapSink fun _ => { w.channel with pending := .ofList rest }
        receiver := { w.receiver with phase := .holding segment } } := by
  cases phase : w.receiver.phase <;> simp only [take, phase] at moved
  case waiting =>
    have line : w.channel.pending = .ofList w.pump.piped := (Line.ofListToList _).symm
    cases piped : w.pump.piped with
    | nil => simp [Channel.receive, line, piped, Session.isRunning, running] at moved
    | cons segment rest =>
      simp only [Channel.receive, line, piped, Line.popCons, Option.some.injEq] at moved
      exact ⟨segment, rest, rfl, rfl, moved.symm⟩
  all_goals cases moved

theorem flowsTake (flows : Flows feed w) (moved : w.take = some next) : Flows feed next := by
  obtain ⟨segment, rest, phase, piped, same⟩ := takeRunning flows.running moved
  have left : next.pump.piped = rest := by
    rw [same]
    exact Line.toListOfList rest
  have waiting : next.pump.waiting = w.pump.waiting := by rw [same]; rfl
  have mail : next.mail = w.mail := by rw [same]; rfl
  have held : next.receiver.phase.held = [segment] := by rw [same]; rfl
  have accepted : next.receiver.accepted = w.receiver.accepted := by rw [same]
  have before : w.receiver.phase.held = [] := by rw [phase]; rfl
  have stays : next.feed = w.feed := by rw [same]
  refine flowsFrame flows ?session ?going ?trusting ?connected ?slot ?tokens ?order ?left
  case session =>
    rw [same]
    exact ⟨rfl, rfl⟩
  case going =>
    rw [same]
    nofun
  case trusting =>
    rw [same]
    exact flows.trusting
  case connected =>
    rw [same]
    exact ⟨flows.connected.consumed, flows.connected.latched⟩
  case slot =>
    rw [same]
    rfl
  case tokens =>
    simp only [tokens, left, held, before, piped, mail, List.length_cons, List.length_nil]
  case order => simp [numbers, afloat, left, held, before, piped, mail, waiting, accepted, stays]
  case left => exact ⟨[], stays⟩

theorem flowsAccept (numbered : ∀ segment ∈ feed, segment.sequence? ≠ none) (flows : Flows feed w)
    (moved : w.accept = some next) : Flows feed next := by
  cases phase : w.receiver.phase <;> simp [accept, phase] at moved
  rename_i segment
  have member : segment.sequence? ∈ feed.map Segment.sequence? := by
    rw [← flows.order]
    simp [numbers, afloat, phase, Receiver.Phase.held]
  obtain ⟨carried, known, number⟩ := List.mem_map.mp member
  obtain ⟨n, sequence⟩ := Option.ne_none_iff_exists'.mp (numbered carried known)
  rw [number] at sequence
  have reported := reportRunning (w := { w with receiver := w.receiver.accept segment })
    flows.running .updateEnd
  rw [← moved, reported]
  refine flowsFrame flows ⟨rfl, rfl⟩ nofun flows.trusting flows.connected rfl ?_ ?_ List.suffix_rfl
  · simp [tokens, pump, mail, phase, Receiver.Phase.held]
    omega
  · simp [numbers, afloat, mail, pump, phase, Receiver.Phase.held, Receiver.accept, sequence,
      Command.segment?]

theorem pumpedFlows {worker : Worker Channel} (connected : worker.pump.Connected) {c : Command}
    (runs : c.stops = false) (expected : c = .signal .updateEnd → worker.pump.slot = .inFlight) :
    worker.verdict c = none ∧ (worker.pumped c).Connected ∧
      (worker.pumped c).piped ++ (worker.pumped c).waiting =
        worker.pump.piped ++ worker.pump.waiting ++ c.segment?.toList ∧
      (worker.pumped c).piped.length + worker.pump.slot.load =
        worker.pump.piped.length + (worker.pumped c).slot.load + [c].count (.signal .updateEnd) := by
  have arrivals := c.eventArrivals
  have completions := c.eventCompletions
  cases event : c.event? with
  | none =>
    rw [event] at arrivals completions
    rw [← arrivals, ← completions, Worker.verdict, Worker.pumped, event, runs]
    exact ⟨rfl, connected, (List.append_nil _).symm, rfl⟩
  | some e =>
    rw [event] at arrivals completions
    have expects : worker.pump.Expects e := fun completed =>
      expected (Command.completedEvent (event.trans (congrArg some completed)))
    obtain ⟨ok, passes⟩ := Pump.passes connected expects
    have verdict : worker.verdict c = Ending.ofResult (worker.pump.react e).result := by
      rw [Worker.verdict, event]
    rw [ok] at verdict
    have pumped : worker.pumped c = (worker.pump.react e).pump := by rw [Worker.pumped, event]
    simp only [Option.toList_some, List.flatMap_singleton, Option.map_some,
      Option.getD_some] at arrivals completions
    rw [← arrivals, ← completions, pumped]
    exact ⟨verdict, passes.connected, passes.order, passes.balance⟩

def Over (w : World) : Prop := w.Shut ∧ ∃ stats, w.session.ending = some (.stopped stats)

theorem serveRunning (running : w.session.ending = none) (moved : w.serve = some next) :
    ∃ c rest, w.mail = c :: rest ∧ next = { w with
      session := { w.session with mailbox := .ofList rest }.absorb (w.session.worker.handle c) } := by
  cases mail : w.mail with
  | nil =>
    have empty : w.session.mailbox.isEmpty = true := by
      rw [Line.isEmpty, Line.sizeToList, show w.session.mailbox.toList = [] from mail]
      rfl
    simp [serve, empty] at moved
  | cons c rest =>
    simp only [serve, Session.serveHead running mail] at moved
    split at moved
    · exact ⟨c, rest, rfl, (Option.some.inj moved).symm⟩
    · cases moved

theorem flowsExpects (flows : Flows feed w) {c : Command} {rest : List Command}
    (head : w.mail = c :: rest) (report : c = .signal .updateEnd) : w.pump.slot = .inFlight := by
  have balance := flows.balance
  rw [tokens, head, report, List.count_cons_self] at balance
  cases slot : w.pump.slot with
  | inFlight => rfl
  | idle =>
    rw [slot, Slot.load] at balance
    omega

theorem mailedCons (c : Command) (rest : List Command) :
    (c :: rest).filterMap Command.segment? =
      c.segment?.toList ++ rest.filterMap Command.segment? := by
  cases segment : c.segment? <;> simp [segment]

theorem flowsTurn (flows : Flows feed w) {c : Command} {rest : List Command}
    (head : w.mail = c :: rest) (runs : c.stops = false) {t : Turn Channel}
    (turn : Worker.Turned w.session.worker c (w.session.worker.pumped c)
      (w.session.worker.verdict c) t)
    (same : next = { w with session := { w.session with mailbox := .ofList rest }.absorb t }) :
    Flows feed next := by
  obtain ⟨verdict, connected, order, balance⟩ :=
    pumpedFlows flows.connected runs (flowsExpects flows head)
  have pump : next.pump = w.session.worker.pumped c := by rw [same, ← turn.pump]; rfl
  have running : t.ending = none := turn.ending.trans verdict
  have mail : next.mail = rest := by simp [same, World.mail, Session.absorb, running]
  have answers : next.session.answers.toList = w.session.answers.toList ++ t.answers := by
    rw [same, Session.absorb, Line.toListAppend]
  have receiver : next.receiver = w.receiver := by rw [same]
  have stays : next.feed = w.feed := by rw [same]
  have afloat : next.afloat = w.afloat := by
    have whole := congrArg (w.receiver.phase.held ++ · ++ rest.filterMap Command.segment?) order
    rw [World.afloat, World.afloat, pump, mail, receiver, head, mailedCons]
    simpa only [List.append_assoc, World.pump] using whole
  constructor
  case running =>
    rw [same]
    exact running
  case unshut =>
    rintro ⟨ticket, member⟩
    rw [answers] at member
    rcases List.mem_append.mp member with old | new
    · exact flows.unshut ⟨ticket, old⟩
    · exact Worker.answersOpen turn runs ticket new
  case going =>
    rw [receiver]
    exact flows.going
  case trusting =>
    rw [same]
    exact flows.trusting
  case connected =>
    rw [pump]
    exact connected
  case balance =>
    have before := flows.balance
    rw [tokens, head, ← List.singleton_append, List.count_append] at before
    rw [tokens, pump, mail, receiver]
    simp only [World.pump] at *
    omega
  case order =>
    rw [numbers, afloat, receiver, stays]
    exact flows.order
  case left =>
    rw [stays]
    exact flows.left

theorem flowsServe (flows : Flows feed w) (moved : w.serve = some next) :
    Flows feed next ∨ Over next := by
  obtain ⟨c, rest, head, same⟩ := serveRunning flows.running moved
  cases stops : c.stops with
  | false => exact .inl (flowsTurn flows head stops (w.session.worker.handled c) same)
  | true =>
    obtain ⟨ticket, rfl⟩ := Command.stopsShutdown stops
    have turn := w.session.worker.handled (.query ticket .shutdown)
    refine .inr ⟨⟨ticket, ?_⟩, w.pump.stats, ?_⟩
    · rw [same, Session.absorb, Line.toListAppend, turn.answers]
      simp [Command.reply]
    · rw [same]
      exact turn.ending

theorem askEnded {fate : Ending} (ended : w.session.ending = some fate) (query : Query)
    (owner : Ticket → Owner) :
    (w.ask query owner).session.ending = some fate ∧
      (w.ask query owner).session.answers = w.session.answers := by
  rw [ask, Session.askClosed ended]
  exact ⟨ended, rfl⟩

theorem reportEnded {fate : Ending} (ended : w.session.ending = some fate) (sign : Signal) :
    (w.report sign).session = w.session := by
  rw [report, Session.sendClosed ended]

theorem moveEnded {fate : Ending} (ended : w.session.ending = some fate) {m : Move}
    (moved : w.move? m = some next) :
    next.session.ending = some fate ∧ next.session.answers = w.session.answers := by
  cases m with
  | deliver =>
    cases owner : w.owner <;> cases left : w.feed <;>
      simp [move?, deliver, owner, left, Session.sendClosed ended] at moved
    rw [← moved]
    exact ⟨ended, rfl⟩
  | askDrained =>
    cases owner : w.owner <;> cases left : w.feed <;>
      simp [move?, askDrained, owner, left] at moved
    exact moved ▸ askEnded ended .waitDrained .draining
  | interrupt =>
    cases owner : w.owner <;> cases left : w.feed <;>
      simp [move?, interrupt, owner, left] at moved
    exact moved ▸ askEnded ended .shutdown .closing
  | askShutdown =>
    cases owner : w.owner <;> simp [move?, askShutdown, owner] at moved
    obtain ⟨outcome, _, rfl⟩ := moved
    cases outcome with
    | error error => exact ⟨ended, rfl⟩
    | ok answer => exact askEnded (w := { w with session := w.session.release }) ended _ _
  | conclude =>
    cases owner : w.owner <;> simp [move?, conclude, owner] at moved
    obtain ⟨outcome, _, rfl⟩ := moved
    cases outcome <;> exact ⟨ended, rfl⟩
  | serve => simp [move?, serve, Session.isRunning, ended] at moved
  | openSink =>
    cases phase : w.receiver.phase <;> simp [move?, openSink, phase] at moved
    rw [← moved, reportEnded ended]
    exact ⟨ended, rfl⟩
  | take =>
    cases phase : w.receiver.phase <;> simp only [move?, take, phase] at moved
    case waiting =>
      split at moved
      · rw [← Option.some.inj moved]
        exact ⟨ended, rfl⟩
      · rw [← Option.some.inj moved]
        exact ⟨ended, rfl⟩
      · cases moved
    all_goals cases moved
  | accept =>
    cases phase : w.receiver.phase <;> simp [move?, accept, phase] at moved
    rw [← moved, reportEnded (w := { w with receiver := w.receiver.accept _ }) ended]
    exact ⟨ended, rfl⟩

theorem flowsMove (numbered : ∀ segment ∈ feed, segment.sequence? ≠ none) (flows : Flows feed w)
    {m : Move} (moved : w.move? m = some next) : Flows feed next ∨ Over next := by
  cases m with
  | deliver => exact .inl (flowsDeliver flows moved)
  | askDrained => exact .inl (flowsAskDrained flows moved)
  | askShutdown => exact .inl (flowsAskShutdown flows moved)
  | interrupt => exact .inl (flowsInterrupt flows moved)
  | conclude => exact .inl (flowsConclude flows moved)
  | serve => exact flowsServe flows moved
  | openSink => exact .inl (flowsOpenSink flows moved)
  | take => exact .inl (flowsTake flows moved)
  | accept => exact .inl (flowsAccept numbered flows moved)

theorem reachableFlows {warnDepth : Nat} (numbered : ∀ segment ∈ feed, segment.sequence? ≠ none)
    (reached : Reachable (World.new feed warnDepth) w) : Flows feed w ∨ Over w := by
  induction reached with
  | start => exact .inl (flowsNew feed warnDepth)
  | move m _ moved ih =>
    rcases ih with flows | ⟨⟨ticket, member⟩, stats, ended⟩
    · exact flowsMove numbered flows moved
    · obtain ⟨ends, answers⟩ := moveEnded ended moved
      exact .inr ⟨⟨ticket, answers ▸ member⟩, stats, ends⟩

end World
end SegmentPump
