import SegmentPump.Proofs.Session.Waiting
import SegmentPump.Proofs.Simulation.Flow

/-! How far a simulated session has come. Its owner feeds it, waits until it is
drained and closes it, and nobody else calls it, so that the owner's own stage
tells what calls are in the mailbox, who waits and who was answered. A world is
`Underway` until the shutdown is handled, and here are the moves beside the
worker. The owner's other way, an interrupt of the wait, is left out. -/
namespace SegmentPump

namespace World

def Signals (commands : List Command) : Prop := ∀ c ∈ commands, ∃ sign, c = .signal sign

def waiters (w : World) : List Ticket := w.session.worker.waiters

def answers (w : World) : List (Ticket × Answer) := w.session.answers.toList

/- The owner makes two calls, the first to wait and the second to shut down. -/
inductive Stage (w : World) : Prop where
  | feeding (owner : w.owner = .feeding) (mail : tickets w.mail = [])
      (calls : w.session.nextTicket = 0) (waiters : w.waiters = []) (answers : w.answers = [])
  | asked {before after : List Command} (owner : w.owner = .draining 0) (fed : w.feed = [])
      (mail : w.mail = before ++ .query 0 .waitDrained :: after) (quiet : tickets before = [])
      (signals : Signals after) (calls : w.session.nextTicket = 1) (waiters : w.waiters = [])
      (answers : w.answers = [])
  | waiting (owner : w.owner = .draining 0) (fed : w.feed = []) (signals : Signals w.mail)
      (calls : w.session.nextTicket = 1) (waiters : w.waiters = [0]) (answers : w.answers = [])
  | drained {answer : Answer} (owner : w.owner = .draining 0) (fed : w.feed = [])
      (signals : Signals w.mail) (calls : w.session.nextTicket = 1) (waiters : w.waiters = [])
      (answers : w.answers = [(0, answer)]) (drained : w.pump.drained = true)
  | closing {before after : List Command} {answer : Answer} (owner : w.owner = .closing 1)
      (fed : w.feed = []) (mail : w.mail = before ++ .query 1 .shutdown :: after)
      (signals : Signals before ∧ Signals after) (waiters : w.waiters = [])
      (answers : w.answers = [(0, answer)]) (drained : w.pump.drained = true)

structure Underway (feed : List Segment) (w : World) : Prop extends Flows feed w where
  alert : w.session.worker.Alert
  heralded : w.receiver.phase = .opening ∨ .signal (.lifecycle .opened) ∈ w.mail ∨
    w.pump.ready = true
  counted : ∃ got, got ++ w.mail.filterMap Command.segment? ++ w.feed = feed ∧
    w.pump.counters.segmentsReceived = got.length ∧ w.pump.counters.bytesReceived = totalSize got
  stage : Stage w

variable {feed : List Segment} {w next : World}

theorem underwayNew (feed : List Segment) (warnDepth : Nat) :
    Underway feed (World.new feed warnDepth) where
  toFlows := flowsNew feed warnDepth
  alert := ⟨Pump.intactNew _ _, fun waits => absurd rfl waits⟩
  heralded := .inl rfl
  counted := ⟨[], rfl, rfl, rfl⟩
  stage := .feeding rfl rfl rfl rfl rfl

theorem signalsNil : Signals [] := fun _ member => absurd member List.not_mem_nil

theorem signalsAppend {xs ys : List Command} (left : Signals xs) (right : Signals ys) :
    Signals (xs ++ ys) := fun c member =>
  (List.mem_append.mp member).elim (left c) (right c)

theorem signalsSilent {commands : List Command} (signals : Signals commands) :
    tickets commands = [] ∧ commands.filterMap Command.segment? = [] := by
  refine ⟨List.filterMap_eq_nil_iff.mpr ?_, List.filterMap_eq_nil_iff.mpr ?_⟩
  all_goals
    intro c member
    obtain ⟨sign, rfl⟩ := signals c member
    rfl

structure Beside (w next : World) (extra : List Command) : Prop where
  mail : next.mail = w.mail ++ extra
  fed : extra.filterMap Command.segment? ++ next.feed = w.feed
  waiters : next.waiters = w.waiters
  pump : ∃ f, next.pump = w.pump.mapSink f
  herald : w.receiver.phase = .opening →
    next.receiver.phase = .opening ∨ .signal (.lifecycle .opened) ∈ extra

theorem besideDrained {extra : List Command} (beside : Beside w next extra) :
    next.pump.drained = w.pump.drained := by
  obtain ⟨f, pump⟩ := beside.pump
  rw [pump]
  rfl

theorem underwayBeside {extra : List Command} (underway : Underway feed w)
    (beside : Beside w next extra) (flows : Flows feed next) (stage : Stage next) :
    Underway feed next := by
  obtain ⟨f, pump⟩ := beside.pump
  have ready : next.pump.ready = w.pump.ready := by rw [pump]; rfl
  have counters : next.pump.counters = w.pump.counters := by rw [pump]; rfl
  refine { toFlows := flows, alert := ⟨?intact, ?patient⟩, heralded := ?heralded
           counted := ?counted, stage }
  case intact =>
    show next.pump.Intact
    rw [pump]
    exact Pump.intactMap underway.alert.intact f
  case patient =>
    intro waits
    rw [← World.waiters, beside.waiters] at waits
    exact (besideDrained beside).trans (underway.alert.patient waits)
  case heralded =>
    rw [ready, beside.mail, List.mem_append]
    rcases underway.heralded with opening | mailed | ready
    · exact (beside.herald opening).imp_right fun now => .inl (.inr now)
    · exact .inr (.inl (.inl mailed))
    · exact .inr (.inr ready)
  case counted =>
    obtain ⟨got, whole, counts⟩ := underway.counted
    rw [counters, beside.mail, List.filterMap_append]
    refine ⟨got, ?_, counts⟩
    rw [← whole, ← beside.fed]
    simp only [List.append_assoc]

structure Unasked (w next : World) (extra : List Command) : Prop extends Beside w next extra where
  signals : Signals extra
  owner : next.owner = w.owner
  calls : next.session.nextTicket = w.session.nextTicket
  answers : next.answers = w.answers

theorem stageUnasked {extra : List Command} (stage : Stage w) (unasked : Unasked w next extra) :
    Stage next := by
  have drained := besideDrained unasked.toBeside
  obtain ⟨⟨mail', fed', waiters', _, _⟩, more, owner', calls', answers'⟩ := unasked
  rw [(signalsSilent more).2, List.nil_append] at fed'
  cases stage with
  | feeding owner mail calls waiters answers =>
    refine .feeding (owner'.trans owner) ?_ (calls'.trans calls) (waiters'.trans waiters)
      (answers'.trans answers)
    rw [mail', ticketsAppend, mail, (signalsSilent more).1]
    rfl
  | asked owner fed mail quiet signals calls waiters answers =>
    refine .asked (owner'.trans owner) (fed'.trans fed) ?_ quiet (signalsAppend signals more)
      (calls'.trans calls) (waiters'.trans waiters) (answers'.trans answers)
    rw [mail', mail, List.append_assoc, List.cons_append]
  | waiting owner fed signals calls waiters answers =>
    exact .waiting (owner'.trans owner) (fed'.trans fed) (mail' ▸ signalsAppend signals more)
      (calls'.trans calls) (waiters'.trans waiters) (answers'.trans answers)
  | drained owner fed signals calls waiters answers rest =>
    exact .drained (owner'.trans owner) (fed'.trans fed) (mail' ▸ signalsAppend signals more)
      (calls'.trans calls) (waiters'.trans waiters) (answers'.trans answers) (drained.trans rest)
  | closing owner fed mail signals waiters answers rest =>
    refine .closing (owner'.trans owner) (fed'.trans fed) ?_
      ⟨signals.1, signalsAppend signals.2 more⟩ (waiters'.trans waiters) (answers'.trans answers)
      (drained.trans rest)
    rw [mail', mail, List.append_assoc, List.cons_append]

theorem underwayUnasked {extra : List Command} (underway : Underway feed w)
    (unasked : Unasked w next extra) (flows : Flows feed next) : Underway feed next :=
  underwayBeside underway unasked.toBeside flows (stageUnasked underway.stage unasked)

theorem reportUnasked (running : w.session.ending = none) (sign : Signal)
    (herald : w.receiver.phase = .opening → sign = .lifecycle .opened) (receiver : Receiver) :
    Unasked w ({ w with receiver }.report sign) [.signal sign] := by
  rw [reportRunning (w := { w with receiver }) running]
  refine ⟨⟨by simp [mail], rfl, rfl, ⟨id, rfl⟩, fun opening => ?_⟩, ?_, rfl, rfl, rfl⟩
  · rw [herald opening]
    exact .inr (List.mem_singleton.mpr rfl)
  · intro c member
    exact ⟨sign, List.mem_singleton.mp member⟩

theorem underwayOpenSink (underway : Underway feed w) (moved : w.openSink = some next) :
    Underway feed next := by
  have flows := flowsOpenSink underway.toFlows moved
  cases phase : w.receiver.phase <;> simp [openSink, phase] at moved
  subst moved
  exact underwayUnasked underway
    (reportUnasked underway.running (.lifecycle .opened) (fun _ => rfl) w.receiver) flows

theorem underwayAccept (numbered : ∀ segment ∈ feed, segment.sequence? ≠ none)
    (underway : Underway feed w) (moved : w.accept = some next) : Underway feed next := by
  have flows := flowsAccept numbered underway.toFlows moved
  cases phase : w.receiver.phase <;> simp [accept, phase] at moved
  subst moved
  refine underwayUnasked underway (reportUnasked underway.running .updateEnd ?_ _) flows
  rw [phase]
  rintro ⟨⟩

theorem underwayTake (underway : Underway feed w) (moved : w.take = some next) :
    Underway feed next := by
  have flows := flowsTake underway.toFlows moved
  obtain ⟨segment, rest, phase, _, same⟩ := takeRunning underway.running moved
  have pump : next.pump = w.pump.mapSink fun _ => { w.channel with pending := .ofList rest } := by
    rw [same]
    rfl
  have unasked : Unasked w next [] := by
    refine ⟨⟨?_, ?_, ?_, ⟨_, pump⟩, ?herald⟩, signalsNil, ?_, ?_, ?_⟩
    case herald =>
      rw [phase]
      rintro ⟨⟩
    all_goals simp [same, World.mail, World.waiters, World.answers, Session.mapSink]
  exact underwayUnasked underway unasked flows

theorem underwayDeliver (underway : Underway feed w) (moved : w.deliver = some next) :
    Underway feed next := by
  have flows := flowsDeliver underway.toFlows moved
  obtain ⟨segment, rest, feeding, head, rfl⟩ := deliverRunning underway.running moved
  refine underwayBeside underway ⟨Line.toListPush _ _, head.symm, rfl, ⟨id, rfl⟩, .inl⟩ flows ?_
  cases underway.stage with
  | feeding owner mail calls waiters answers =>
    refine .feeding owner ?_ calls waiters answers
    rw [World.mail, Line.toListPush, ticketsAppend, ← World.mail, mail]
    rfl
  | _ owner => rw [feeding] at owner; cases owner

theorem askRunning (running : w.session.ending = none) (query : Query) (owner : Ticket → Owner) :
    w.ask query owner = { w with
      session := { w.session with
        mailbox := w.session.mailbox.push (.query w.session.nextTicket query)
        holders := w.session.holders + 1
        nextTicket := w.session.nextTicket + 1 }
      owner := owner w.session.nextTicket } := by
  rw [ask, Session.askRunning running]
  rfl

theorem underwayAsk (underway : Underway feed w) {query : Query} {owner : Ticket → Owner}
    (trusting : ∀ ticket error, owner ticket ≠ .failed error) (stage : Stage (w.ask query owner)) :
    Underway feed (w.ask query owner) := by
  have flows := flowsAsk underway.toFlows query trusting
  rw [askRunning underway.running] at flows stage ⊢
  exact underwayBeside underway ⟨Line.toListPush _ _, rfl, rfl, ⟨id, rfl⟩, .inl⟩ flows stage

theorem underwayAskDrained (underway : Underway feed w) (moved : w.askDrained = some next) :
    Underway feed next := by
  cases feeding : w.owner <;> cases fed : w.feed <;> simp [askDrained, feeding, fed] at moved
  subst moved
  refine underwayAsk underway (by simp) ?_
  rw [askRunning underway.running]
  cases underway.stage with
  | feeding owner mail calls waiters answers =>
    refine .asked ?_ fed ?_ mail signalsNil ?_ waiters answers
    · simp [calls]
    · simp [World.mail, calls]
    · simp [calls]
  | _ owner => rw [feeding] at owner; cases owner

theorem underwayRelease (underway : Underway feed w) :
    Underway feed { w with session := w.session.release } := by
  have unasked : Unasked w { w with session := w.session.release } [] :=
    ⟨⟨(List.append_nil _).symm, rfl, rfl, ⟨id, rfl⟩, .inl⟩, signalsNil, rfl, rfl, rfl⟩
  exact underwayUnasked underway unasked (flowsRelease underway.toFlows underway.trusting)

theorem outcomeLookup (running : w.session.ending = none) {ticket : Ticket}
    (unknown : w.answers.lookup ticket = none) : w.session.outcome ticket = none := by
  rw [Session.outcome, ← answers, unknown]
  simp [Session.isRunning, running]

theorem underwayAskShutdown (underway : Underway feed w) (moved : w.askShutdown = some next) :
    Underway feed next := by
  cases draining : w.owner <;> simp [askShutdown, draining] at moved
  obtain ⟨outcome, known, same⟩ := moved
  obtain ⟨_, rfl⟩ := outcomeRunning underway.running known
  subst same
  have released := underwayRelease underway
  refine underwayAsk released (by simp) ?_
  rw [askRunning released.running]
  cases underway.stage with
  | drained owner fed signals calls waiters answers drained =>
    refine .closing ?_ fed ?_ ⟨signals, signalsNil⟩ waiters answers drained
    · simp [Session.release, calls]
    · simp [World.mail, Session.release, calls]
  | asked _ _ _ _ _ _ _ answers | waiting _ _ _ _ _ answers =>
    rw [outcomeLookup underway.running (by rw [answers]; rfl)] at known
    cases known
  | _ owner => rw [draining] at owner; cases owner

theorem underwayConclude (underway : Underway feed w) : w.conclude = none := by
  cases underway.stage with
  | closing owner _ _ _ _ answers =>
    simp only [conclude, owner]
    rw [outcomeLookup underway.running (by rw [answers]; rfl)]
    rfl
  | _ owner => simp only [conclude, owner]

end World
end SegmentPump
