import SegmentPump.Proofs.Pump.Ledger
import SegmentPump.Proofs.Session.History

/-! A session refines its pump. Whatever is sent to a session and whenever its
worker runs, the run is the fold of the pump over the events that the commands
mean, cut at the first shutdown and at the first failure. `refinesPump` says
what callers and whoever joins the session get to know of that fold. -/
namespace SegmentPump

variable {σ : Type} [Sink σ]

namespace Session

theorem handsServe (s : Session σ) :
    s.serve.nextTicket = s.nextTicket ∧ s.serve.holders = s.holders := by
  cases ending : s.ending with
  | some fate =>
    rw [serveEnded ending]
    exact ⟨rfl, rfl⟩
  | none =>
    cases mailbox : s.mailbox.toList with
    | nil =>
      rw [serveIdle mailbox]
      exact ⟨rfl, rfl⟩
    | cons c rest =>
      rw [serveHead ending mailbox]
      exact ⟨rfl, rfl⟩

theorem handsServeAll (count : Nat) (s : Session σ) :
    (s.serveAll count).nextTicket = s.nextTicket ∧ (s.serveAll count).holders = s.holders := by
  induction count generalizing s with
  | zero => exact ⟨rfl, rfl⟩
  | succ count ih =>
    obtain ⟨tickets, holders⟩ := handsServe s
    rw [← tickets, ← holders]
    exact ih s.serve

omit [Sink σ] in
theorem handsStart (s : Session σ) :
    s.start.nextTicket = s.nextTicket ∧ s.start.holders = s.holders := by
  unfold start
  split <;> exact ⟨rfl, rfl⟩

theorem handsSettle (s : Session σ) :
    s.settle.nextTicket = s.nextTicket ∧ s.settle.holders = s.holders := by
  obtain ⟨tickets, holders⟩ := handsStart s
  rw [settle, ← tickets, ← holders, retireIf]
  split
  · exact handsServeAll _ s.start
  · exact handsServeAll _ s.start

theorem nextTicketUse (s : Session σ) (u : Use) : s.nextTicket ≤ (s.use u).nextTicket := by
  cases u with
  | turn => exact Nat.le_of_eq (handsServe s).1.symm
  | settle => exact Nat.le_of_eq (handsSettle s).1.symm
  | _ => cases ending : s.ending <;>
      simp [use, retain, release, tellRunning, tellClosed, askRunning, askClosed, ending]

theorem ticketPosted {s : Session σ} {u : Use} {ticket : Ticket}
    (member : ticket ∈ tickets (s.posted u).toList) :
    ticket = s.nextTicket ∧ (s.use u).nextTicket = s.nextTicket + 1 := by
  cases ending : s.ending with
  | some fate =>
    rw [postedClosed (by simp [ending])] at member
    cases member
  | none =>
    rw [postedRunning ending] at member
    cases u <;> simp [tickets, Use.command?, Command.ticket?] at member
    case ask query => exact ⟨member, by simp [use, askRunning ending]⟩

theorem sentTickets (s : Session σ) (uses : List Use) :
    (tickets (s.sent uses)).Pairwise (· < ·) ∧
      ∀ ticket ∈ tickets (s.sent uses), s.nextTicket ≤ ticket := by
  induction uses generalizing s with
  | nil => simp [sent, tickets]
  | cons u rest ih =>
    obtain ⟨rising, later⟩ := ih (s.use u)
    have split : tickets (s.sent (u :: rest)) =
        tickets (s.posted u).toList ++ tickets ((s.use u).sent rest) :=
      List.filterMap_append
    rw [split, List.pairwise_append]
    refine ⟨⟨?_, rising, ?_⟩, ?_⟩
    · cases s.posted u with
      | none => exact .nil
      | some c => cases c <;> simp [tickets, List.filterMap, Command.ticket?]
    · intro ticket now other member
      obtain ⟨same, next⟩ := ticketPosted now
      calc ticket = s.nextTicket := same
        _ < s.nextTicket + 1 := Nat.lt_succ_self _
        _ = (s.use u).nextTicket := next.symm
        _ ≤ other := later other member
    · intro ticket member
      rcases List.mem_append.mp member with now | then'
      · exact Nat.le_of_eq (ticketPosted now).1.symm
      · exact Nat.le_trans (nextTicketUse s u) (later ticket then')

theorem sentFresh {s : Session σ} {uses : List Use} {before later : List Command}
    {ticket : Ticket} {query : Query}
    (split : s.sent uses = before ++ .query ticket query :: later) : ticket ∉ tickets before := by
  have rising := (sentTickets s uses).1
  rw [split, tickets, List.filterMap_append, List.pairwise_append] at rising
  intro member
  have less := rising.2.2 ticket member ticket (by simp [Command.ticket?])
  exact absurd less (Nat.lt_irrefl ticket)

theorem settleRunning {s : Session σ} (running : s.settle.ending = none) :
    s.settle.mailbox.toList = [] ∧ s.settle.holders ≠ 0 := by
  rw [settle, retireIf] at *
  split at running
  case isTrue => cases running
  case isFalse busy =>
    have empty := serveAllMailbox _ running
    rw [List.drop_eq_nil_of_le (Nat.le_of_eq (Line.sizeToList _).symm)] at empty
    rw [if_neg busy]
    exact ⟨empty, fun alone => busy ⟨running, alone, empty⟩⟩

structure Rested (start : Worker σ) (commands : List Command) (s : Session σ) : Prop where
  ran : Ran start commands s
  fate : s.ending = (start.run commands).ending ∨
    (start.run commands).ending = none ∧ s.ending = some (.stopped s.worker.pump.stats)
  held : s.ending = none → s.holders ≠ 0

theorem restedSettle {start : Worker σ} {commands : List Command} {s : Session σ}
    (follows : Follows start commands s) : Rested start commands s.settle := by
  have held : s.settle.ending = none → s.settle.holders ≠ 0 := fun running =>
    (settleRunning running).2
  cases followsSettle follows with
  | running ran on goes split =>
    rw [(settleRunning goes).1, List.append_nil] at split
    subst split
    exact ⟨ran, .inl (goes.trans on.symm), held⟩
  | ended ran fell ends => exact ⟨ran, .inl (ends.trans fell.symm), held⟩
  | retired ran on ends => exact ⟨ran, .inr ⟨on, ends⟩, held⟩

variable {start : Worker σ} {commands : List Command} {s : Session σ}

theorem restedStats (alone : start.waiters = []) (rested : Rested start commands s)
    {before later : List Command} {ticket : Ticket}
    (split : commands = before ++ .query ticket .stats :: later) (fresh : ticket ∉ tickets before) :
    s.outcome ticket = some (if (start.run before).ending = none
      then .ok (.stats (start.run before).worker.pump.stats) else .error .closed) := by
  have answer := Worker.runStats alone fresh later
  rw [← split, ← rested.ran.answers] at answer
  cases ending : (start.run before).ending with
  | none => rw [outcome, answer, if_pos ending, if_pos rfl]
  | some fate =>
    have cut := Worker.runCut ending (.query ticket .stats :: later)
    rw [← split] at cut
    have ended : s.ending = some fate := by
      rcases rested.fate with same | ⟨on, _⟩
      · rw [same, cut, ending]
      · rw [cut, ending] at on
        cases on
    have closed : s.isRunning = false := by rw [isRunning, ended]; rfl
    simp [outcome, answer, ending, closed]

theorem restedFailed (rested : Rested start commands s) {e : PumpError}
    (failed : (start.pump.feed (heard commands)).result = .error (.pump e)) :
    s.join = some (.error (.pump e)) := by
  have close := (Worker.runFollows start commands).2
  rw [Worker.close, failed] at close
  rcases rested.fate with same | ⟨on, _⟩
  · rw [join, same, close]
    rfl
  · rw [on] at close
    cases close

theorem restedOk (rested : Rested start commands s)
    (ok : (start.pump.feed (heard commands)).result = .ok ()) :
    s.ending = some (.stopped (start.pump.feed (heard commands)).pump.stats) ∨
      s.ending = none ∧ commands.any Command.stops = false ∧ s.holders ≠ 0 := by
  obtain ⟨pump, close⟩ := Worker.runFollows start commands
  rw [Worker.close, ok] at close
  cases stops : commands.any Command.stops with
  | true =>
    rcases rested.fate with same | ⟨on, _⟩
    · exact .inl (same.trans (close.trans (if_pos stops)))
    · rw [on, stops] at close
      cases close
  | false =>
    have on : (start.run commands).ending = none := by rw [close, stops]; rfl
    rcases rested.fate with same | ⟨_, stopped⟩
    · have running := same.trans on
      exact .inr ⟨running, rfl, rested.held running⟩
    · rw [rested.ran.worker, pump] at stopped
      exact .inl stopped

/- The uses may be anything, so this is about every point of every history: the
session is let run until it has nothing to do, and then looked at. -/
theorem refinesPump (sink : σ) (warnDepth : Nat) (uses : List Use) :
    let begun := Session.new ({ sink } : Observed σ) warnDepth
    let s := (begun.useAll uses).settle
    let commands := begun.sent uses
    let run (part : List Command) := (Pump.observed sink warnDepth).feed (heard part)
    s.worker.pump = (run commands).pump ∧
      s.worker.pump.sink.offered <+: commands.filterMap Command.segment? ∧
      (∀ before ticket later, commands = before ++ .query ticket .stats :: later →
        s.outcome ticket = some (if Worker.close (run before) before = none
          then .ok (.stats (run before).pump.stats) else .error .closed)) ∧
      (∀ e, (run commands).result = .error (.pump e) → s.join = some (.error (.pump e))) ∧
      ((run commands).result = .ok () →
        (s.join = none ∨ s.join = some (.ok (run commands).pump.stats)) ∧
        (commands.any Command.stops = true ∨ s.holders = 0 →
          s.join = some (.ok (run commands).pump.stats))) ∧
      (Sink.Steady sink →
        (run commands).result = .ok () ∨ ∃ e, (run commands).result = .error (.pump e)) := by
  intro begun s commands run
  let start : Worker (Observed σ) := { pump := .observed sink warnDepth }
  have follows : Follows start commands (begun.useAll uses) := followsAll (followsNew _ _) uses
  have rested : Rested start commands s := restedSettle follows
  have ran (part : List Command) := Worker.runFollows start part
  have pump : s.worker.pump = (run commands).pump := by rw [rested.ran.worker, (ran commands).1]
  refine ⟨pump, ?_, ?_, fun e failed => restedFailed rested failed, ?_, ?_⟩
  · obtain ⟨count, same⟩ := Pump.feedAfter start.pump (heard commands)
    have books := Pump.ledgerAfter sink warnDepth ((heard commands).take count)
    have offered : s.worker.pump.sink.offered <+: arrivals ((heard commands).take count) := by
      rw [pump, same, ← books.conserved]
      exact List.prefix_append _ _
    have parts := congrArg arrivals (List.take_append_drop count (heard commands))
    rw [arrivalsAppend] at parts
    exact offered.trans (List.IsPrefix.trans ⟨_, parts⟩ (heardArrivals commands))
  · intro before ticket later split
    have answer := restedStats rfl rested split (sentFresh split)
    rwa [(ran before).1, (ran before).2] at answer
  · intro ok
    rcases restedOk rested ok with stopped | ⟨running, silent, holders⟩
    · have joined : s.join = some (.ok (run commands).pump.stats) := by rw [join, stopped]; rfl
      exact ⟨.inr joined, fun _ => joined⟩
    · refine ⟨.inl (by rw [join, running]; rfl), fun ends => ?_⟩
      rcases ends with stops | alone
      · rw [silent] at stops
        cases stops
      · exact absurd alone holders
  · intro steady
    exact Pump.feedSteady steady (Pump.ledgerNew sink warnDepth) (heard commands)

end Session
end SegmentPump
