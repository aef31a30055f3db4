import SegmentPump.Proofs.Simulation.Flow

/-! Every move leaves less work, whoever makes it and however the session stands,
so that nobody can go on for ever. A segment is worth most with the source and
less with each hand it passes through. -/
namespace SegmentPump

def Pump.burden (p : Pump Channel) : Nat := p.backlog.size + p.sink.pending.size

namespace Pump

theorem offerBurden {c after : Channel} {segment : Segment} {reply : Reply}
    (answer : Sink.offer c segment = (reply, after)) : after.pending.size ≤ c.pending.size + 1 := by
  rw [Sink.offer, instSinkChannel] at answer
  cases consumed : c.consumed <;> simp [consumed] at answer <;> obtain ⟨_, rfl⟩ := answer
  · exact Nat.le_succ _
  · simp [Line.sizeToList]

theorem advanceBurden (p : Pump Channel) : p.advance.pump.burden ≤ p.burden := by
  by_cases clear : p.Clear
  case pos =>
    have way := advances clear
    generalize p.advance = s at way ⊢
    cases way with
    | rest => exact Nat.le_refl _
    | @offer segment rest reply sink head answer =>
      have room := offerBurden answer
      have before : p.backlog.size = rest.length + 1 := by
        rw [Backlog.sizeToList, show p.backlog.toList = segment :: rest from head, List.length_cons]
      have after : ((p.handOver segment rest sink).conclude segment reply).pump.backlog.size =
          rest.length := by
        rw [concludeBacklog, Backlog.sizeToList]
        exact congrArg List.length (waitingHandOver p segment rest sink)
      rw [burden, burden, after, before, concludeSink, sinkHandOver]
      omega
  case neg =>
    have same : p.advance = .fail p .misuse := if_neg fun begins => clear (clearIff.mp begins)
    rw [same]
    exact Nat.le_refl _

theorem reactBurden (p : Pump Channel) (e : Event) :
    (p.react e).pump.burden ≤ p.burden + e.arrivals.length := by
  have entered : (p.enter e).pump.burden = p.burden + e.arrivals.length := by
    have waiting := congrArg List.length (enterWaiting p e)
    rw [List.length_append] at waiting
    simp only [burden, Backlog.sizeToList, enterSink]
    simp only [Pump.waiting] at waiting
    omega
  have advanced := Nat.le_trans (advanceBurden (p.enter e).pump) (Nat.le_of_eq entered)
  rw [reactPump]
  cases e with
  | arrived segment | sinkReady =>
    rw [apply]
    split
    · exact advanced
    · exact Nat.le_of_eq entered
  | completed =>
    rw [apply]
    split
    · exact Nat.le_refl _
    · exact advanced

end Pump

theorem Command.workSegment (c : Command) : 3 * c.segment?.toList.length + 1 ≤ c.work := by
  cases c <;> simp [segment?, work]

namespace World

variable {w next : World}

def mailWork (commands : List Command) : Nat := commands.foldr (fun c left => c.work + left) 0

theorem workParts (w : World) :
    w.work = 5 * w.feed.length + mailWork w.mail + 3 * w.pump.burden + w.receiver.phase.work +
      w.owner.work := by
  rw [Pump.burden, work, mailWork, World.mail, pump, channel]
  omega

theorem mailWorkPush (l : Line Command) (c : Command) :
    mailWork (l.push c).toList = mailWork l.toList + c.work := by
  rw [Line.toListPush]
  induction l.toList with
  | nil => simp [mailWork]
  | cons first rest ih =>
    have ahead (tail : List Command) : mailWork (first :: tail) = first.work + mailWork tail := rfl
    rw [List.cons_append, ahead, ahead, ih]
    omega

theorem reportWork (w : World) (sign : Signal) :
    (w.report sign).work + w.receiver.phase.work ≤ w.work + 2 := by
  cases ending : w.session.ending with
  | none =>
    rw [reportRunning ending, workParts, workParts w]
    simp only [mail, mailWorkPush, pump, Receiver.Phase.work, Command.work]
    omega
  | some fate =>
    rw [report, Session.sendClosed ending, workParts, workParts w]
    simp only [mail, pump, Receiver.Phase.work]
    omega

theorem askWork (w : World) (query : Query) (owner : Ticket → Owner) :
    (w.ask query owner).work + w.owner.work ≤ w.work + 1 + (owner w.session.nextTicket).work := by
  cases ending : w.session.ending with
  | none =>
    rw [ask, Session.askRunning ending, workParts, workParts w]
    simp only [mail, mailWorkPush, pump, Session.retain, Command.work]
    omega
  | some fate =>
    rw [ask, Session.askClosed ending, workParts, workParts w]
    simp only [mail, pump, Session.retain]
    omega

theorem deliverWork (moved : w.deliver = some next) : next.work < w.work := by
  cases owner : w.owner <;> cases fed : w.feed <;> simp only [deliver, owner, fed] at moved
  case feeding.cons =>
    cases ending : w.session.ending with
    | none =>
      rw [Session.sendRunning ending] at moved
      cases moved
      rw [workParts, workParts w, owner, fed]
      simp only [mail, mailWorkPush, pump, Command.work, List.length_cons]
      omega
    | some fate =>
      rw [Session.sendClosed ending] at moved
      cases moved
      rw [workParts, workParts w, owner, fed]
      simp only [mail, pump, Owner.work]
      omega
  all_goals cases moved

theorem takeWork (moved : w.take = some next) : next.work < w.work := by
  cases phase : w.receiver.phase <;> simp only [take, phase] at moved
  case waiting =>
    obtain ⟨piped, line⟩ : ∃ piped, w.channel.pending = .ofList piped :=
      ⟨_, (Line.ofListToList _).symm⟩
    have size : w.session.worker.pump.sink.pending.size = piped.length := by
      rw [← Line.sizeOfList, ← line]
      rfl
    rw [Channel.receive, line] at moved
    cases piped with
    | nil =>
      rw [Line.popNil] at moved
      cases running : w.session.isRunning <;> simp only [running] at moved <;> cases moved
      rw [workParts, workParts w, phase]
      simp only [mail, pump, Receiver.Phase.work]
      omega
    | cons segment rest =>
      rw [Line.popCons] at moved
      cases moved
      rw [workParts, workParts w, phase]
      simp only [mail, pump, Session.mapSink, Pump.mapSink, Pump.burden, Line.sizeOfList, size,
        Receiver.Phase.work, List.length_cons]
      omega
  all_goals cases moved

theorem serveWork (moved : w.serve = some next) : next.work < w.work := by
  have running : w.session.ending = none := by
    cases ending : w.session.ending with
    | none => rfl
    | some fate => simp [serve, Session.isRunning, ending] at moved
  obtain ⟨c, rest, head, same⟩ := serveRunning running moved
  have turn := w.session.worker.handled c
  have mail : mailWork next.mail ≤ mailWork rest := by
    cases ending : (w.session.worker.handle c).ending <;>
      simp [same, World.mail, Session.absorb, ending, mailWork]
  have burden : next.pump.burden ≤ w.pump.burden + c.segment?.toList.length := by
    have pump : next.pump = w.session.worker.pumped c := by rw [same, ← turn.pump]; rfl
    rw [pump]
    rcases w.session.worker.pumpedWays c with ⟨_, still⟩ | ⟨e, arrivals, reacts⟩
    · rw [still]
      exact Nat.le_add_right _ _
    · rw [reacts, ← arrivals]
      exact Pump.reactBurden _ e
  have fed : next.feed = w.feed := by rw [same]
  have receiver : next.receiver = w.receiver := by rw [same]
  have owner : next.owner = w.owner := by rw [same]
  have worth := c.workSegment
  have before : mailWork w.mail = c.work + mailWork rest := by rw [head]; rfl
  rw [workParts, workParts w, fed, receiver, owner, before]
  omega

theorem moveWork {m : Move} (moved : w.move? m = some next) : next.work < w.work := by
  cases m with
  | deliver => exact deliverWork moved
  | take => exact takeWork moved
  | serve => exact serveWork moved
  | askDrained =>
    cases owner : w.owner <;> cases fed : w.feed <;>
      simp [move?, askDrained, owner, fed] at moved
    have asked := askWork w .waitDrained .draining
    rw [owner, moved] at asked
    simp only [Owner.work] at asked
    omega
  | interrupt =>
    cases owner : w.owner <;> cases fed : w.feed <;>
      simp [move?, interrupt, owner, fed] at moved
    have asked := askWork w .shutdown .closing
    rw [owner, moved] at asked
    simp only [Owner.work] at asked
    omega
  | askShutdown =>
    cases owner : w.owner <;> simp [move?, askShutdown, owner] at moved
    rename_i ticket
    obtain ⟨outcome, _, same⟩ := moved
    cases outcome with
    | ok answer =>
      let released : World := ⟨w.feed, w.session.release, w.receiver, .draining ticket⟩
      have before : released.work = w.work := by
        rw [workParts, workParts w, owner]
        rfl
      have asked := askWork released .shutdown .closing
      rw [before, show released.ask .shutdown .closing = next from same] at asked
      simp only [released, Owner.work] at asked
      omega
    | error error =>
      subst same
      rw [workParts, workParts w, owner]
      simp only [mail, pump, Owner.work]
      omega
  | conclude =>
    cases owner : w.owner <;> simp [move?, conclude, owner] at moved
    obtain ⟨outcome, _, same⟩ := moved
    rw [workParts w, owner]
    cases outcome <;> subst same <;> rw [workParts] <;>
      simp only [mail, pump, Session.release, Owner.work] <;> omega
  | openSink =>
    cases phase : w.receiver.phase <;> simp [move?, openSink, phase] at moved
    have reported := reportWork w (.lifecycle .opened)
    rw [phase, moved] at reported
    simp only [Receiver.Phase.work] at reported
    omega
  | accept =>
    cases phase : w.receiver.phase <;> simp [move?, accept, phase] at moved
    rename_i segment
    have reported := reportWork { w with receiver := w.receiver.accept segment } .updateEnd
    have before : World.work { w with receiver := w.receiver.accept segment } = w.work := rfl
    have held : (w.receiver.accept segment).phase.work = 3 := by
      rw [Receiver.accept, phase, Receiver.Phase.work]
    rw [moved, before, held] at reported
    omega

end World
end SegmentPump
