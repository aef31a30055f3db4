import SegmentPump.Proofs.Session.Waiting

/-! The end of a session. `Fell` lists the ways in which a session comes to its
end and what whoever joins it is told. Up to the end every call is with its
caller as an answer, with the worker among the waiters, or in the mailbox, and
in one of the three only; at the end the last two kinds are closed, and nothing
that is done to the session afterwards changes anything. `endIsFinal` says all
this of any history. -/
namespace SegmentPump

variable {σ : Type}

theorem addresseesSilent {answers : List (Ticket × Answer)} {ticket : Ticket}
    (unanswered : ticket ∉ addressees answers) : answers.lookup ticket = none := by
  have listed : ∀ answer ∈ answers, answer.1 ∈ addressees answers :=
    fun answer member => List.mem_map_of_mem member
  exact Worker.lookupFresh listed unanswered

theorem heardSegments {commands : List Command} (silent : commands.any Command.stops = false) :
    arrivals (heard commands) = commands.filterMap Command.segment? := by
  induction commands with
  | nil => rfl
  | cons c rest ih =>
    rw [List.any_cons, Bool.or_eq_false_iff] at silent
    rw [heardCons silent.1, arrivalsAppend, arrivals, c.eventArrivals, ih silent.2]
    cases segment : c.segment? <;> simp [segment]

theorem heardStopped {before : List Command} {c : Command} (stops : c.stops = true) :
    heard (before ++ [c]) = heard before := by
  induction before with
  | nil => exact heardStops stops []
  | cons d rest ih =>
    cases ends : d.stops with
    | true => rw [List.cons_append, heardStops ends, heardStops ends]
    | false => rw [List.cons_append, heardCons ends, heardCons ends, ih]

variable [Sink σ]

structure Unbroken (p : Pump σ) (commands : List Command) : Prop where
  ok : (p.feed (heard commands)).result = .ok ()
  silent : commands.any Command.stops = false

/- The session still went on when it was let run with nobody holding it. -/
def Session.Left (s : Session σ) (uses : List Use) : Prop :=
  ∃ before later, uses = before ++ .settle :: later ∧ (s.useAll before).ending = none ∧
    (s.useAll before).holders = 0

/- The commands that the worker met, those that nobody meets any more, and the
outcome. -/
inductive Fell (p : Pump σ) (left : Prop) :
    List Command → List Command → Except SessionError Stats → Prop where
  | shutdown {before lost : List Command} {ticket : Ticket} (whole : Unbroken p before) :
      Fell p left (before ++ [.query ticket .shutdown]) lost
        (.ok (p.feed (heard before)).pump.stats)
  | deserted {met : List Command} (whole : Unbroken p met) (leaving : left) :
      Fell p left met [] (.ok (p.feed (heard met)).pump.stats)
  | failed {before lost : List Command} {c : Command} {e : Event} {error : PumpError}
      (whole : Unbroken p before) (event : c.event? = some e)
      (failure : ((p.feed (heard before)).pump.react e).result = .error (.pump error)) :
      Fell p left (before ++ [c]) lost (.error (.pump error))
  | crashed {before lost : List Command} {c : Command} {e : Event} {reason : String}
      (whole : Unbroken p before) (event : c.event? = some e)
      (failure : ((p.feed (heard before)).pump.react e).result = .error .sinkCrashed) :
      Fell p left (before ++ [c]) lost (.error (.taskFailed reason))

namespace Worker

def Accounted (w : Worker σ) (met : List Command) : Prop :=
  (addressees (w.run met).answers ++ (w.run met).worker.waiters).Perm (w.waiters ++ tickets met)

theorem accountedSnoc {w : Worker σ} {before : List Command} (accounted : w.Accounted before)
    (on : (w.run before).ending = none) (c : Command) : w.Accounted (before ++ [c]) := by
  have turn := turnedCalls (handled (w.run before).worker c)
  have earlier := accounted.append_right (tickets [c])
  rw [List.append_assoc, List.append_assoc] at earlier
  rw [Accounted, runSplit on, runOne, addresseesAppend, ticketsAppend, List.append_assoc]
  exact (turn.append_left _).trans earlier

theorem accountedOn {w : Worker σ} {met : List Command} (on : (w.run met).ending = none) :
    w.Accounted met := by
  induction met using List.reverseRecOn with
  | nil => exact .of_eq (List.append_nil _).symm
  | append_singleton before c ih =>
    have earlier := runGoesOn on
    exact accountedSnoc (ih earlier) earlier c

theorem unbrokenOn {w : Worker σ} {commands : List Command} (on : (w.run commands).ending = none) :
    Unbroken w.pump commands := by
  have close := (runFollows w commands).2
  rw [on, Worker.close] at close
  cases result : (w.pump.feed (heard commands)).result with
  | error fault => rw [result] at close; cases fault <;> cases close
  | ok _ =>
    refine ⟨result, ?_⟩
    rw [result] at close
    cases silent : commands.any Command.stops with
    | false => rfl
    | true => rw [silent] at close; cases close

theorem runCutAt {w : Worker σ} {commands : List Command} {fate : Ending}
    (ended : (w.run commands).ending = some fate) :
    ∃ before c lost, before ++ [c] ++ lost = commands ∧ (w.run before).ending = none ∧
      (w.run (before ++ [c])).ending = some fate := by
  induction commands generalizing w with
  | nil => cases ended
  | cons c rest ih =>
    cases ending : (w.handle c).ending with
    | some fate' =>
      rw [runEnded ending, ending] at ended
      exact ⟨[], c, rest, rfl, rfl, by rw [List.nil_append, runOne, ending, ended]⟩
    | none =>
      rw [runOn ending] at ended
      obtain ⟨before, d, lost, rfl, on, fell⟩ := ih ended
      refine ⟨c :: before, d, lost, rfl, ?_, ?_⟩
      · rw [runOn ending, on]
      · rw [List.cons_append, runOn ending, fell]

theorem fellEnded {w : Worker σ} {left : Prop} (intact : w.pump.Intact) (alone : w.waiters = [])
    {before : List Command} {c : Command} (on : (w.run before).ending = none) {fate : Ending}
    (ended : (w.run (before ++ [c])).ending = some fate) (lost : List Command) :
    Fell w.pump left (before ++ [c]) lost fate.outcome := by
  have whole := unbrokenOn on
  have pump := (runFollows w before).1
  have alert : (w.run before).worker.Alert :=
    alertRun ⟨intact, fun waits => absurd alone waits⟩ on
  have turn := handled (w.run before).worker c
  rw [runSplit on, runOne] at ended
  have fell := turn.ending.symm.trans ended
  cases event : c.event? with
  | none =>
    cases stops : c.stops with
    | false => simp [verdict, event, stops] at fell
    | true =>
      obtain ⟨ticket, rfl⟩ := Command.stopsShutdown stops
      simp only [verdict, event, stops, pump] at fell
      cases fell
      exact .shutdown whole
  | some e =>
    simp only [verdict, event, pump] at fell
    cases result : ((w.pump.feed (heard before)).pump.react e).result with
    | ok _ => rw [result] at fell; cases fell
    | error fault =>
      rw [result] at fell
      cases fault with
      | pump error => cases fell; exact .failed whole event result
      | sinkCrashed => cases fell; exact .crashed whole event result
      | misuse => exact absurd result (Pump.reactProper (pump ▸ alert.intact.latched) e)

end Worker

theorem fellDiscards {sink : σ} {warnDepth : Nat} {left : Prop} {met lost : List Command}
    {stats : Stats} (fell : Fell (Pump.observed sink warnDepth) left met lost (.ok stats)) :
    let p := ((Pump.observed sink warnDepth).feed (heard met)).pump
    stats = p.stats ∧ p.sink.offered ++ p.waiting = met.filterMap Command.segment? ∧
      stats.queueDepth = p.waiting.length ∧ stats.queuedBytes = totalSize p.waiting := by
  have discards {commands : List Command} (whole : Unbroken (Pump.observed sink warnDepth) commands) :
      let p := ((Pump.observed sink warnDepth).feed (heard commands)).pump
      p.sink.offered ++ p.waiting = commands.filterMap Command.segment? ∧
        p.stats.queueDepth = p.waiting.length ∧ p.stats.queuedBytes = totalSize p.waiting := by
    have books := Pump.ledgerAfter sink warnDepth (heard commands)
    rw [← Pump.feedWhole whole.ok, heardSegments whole.silent] at books
    exact ⟨books.conserved, Backlog.sizeToList _, books.exact⟩
  cases fell with
  | @shutdown before _ ticket whole =>
    have arrived : (before ++ [Command.query ticket .shutdown]).filterMap Command.segment? =
        before.filterMap Command.segment? := by simp [Command.segment?]
    rw [heardStopped rfl, arrived]
    exact ⟨rfl, discards whole⟩
  | deserted whole _ => exact ⟨rfl, discards whole⟩

namespace Session

theorem endedUse {s : Session σ} {fate : Ending} (ended : s.ending = some fate) (u : Use) :
    (s.use u).worker = s.worker ∧ (s.use u).answers = s.answers ∧
      (s.use u).ending = some fate := by
  rcases u.sides with outside | rfl | rfl
  · obtain ⟨worker, answers, ending, _⟩ := useOutside s outside
    exact ⟨worker, answers, ending.trans ended⟩
  · rw [use, serveEnded ended]
    exact ⟨rfl, rfl, ended⟩
  · have begun : s.start.worker = s.worker ∧ s.start.answers = s.answers ∧
        s.start.ending = some fate := by
      unfold Session.start
      split <;> exact ⟨rfl, rfl, ended⟩
    rw [use, settle, serveAllEnded _ begun.2.2, retireIf, if_neg (by simp [begun.2.2])]
    exact begun

theorem endedUseAll {s : Session σ} {fate : Ending} (ended : s.ending = some fate)
    (uses : List Use) :
    (s.useAll uses).worker = s.worker ∧ (s.useAll uses).answers = s.answers ∧
      (s.useAll uses).ending = some fate := by
  induction uses generalizing s with
  | nil => exact ⟨rfl, rfl, ended⟩
  | cons u rest ih =>
    obtain ⟨worker, answers, ending⟩ := endedUse ended u
    obtain ⟨worker', answers', ending'⟩ := ih ending
    exact ⟨worker'.trans worker, answers'.trans answers, ending'⟩

theorem nextTicketUseAll (s : Session σ) (uses : List Use) :
    s.nextTicket ≤ (s.useAll uses).nextTicket := by
  induction uses generalizing s with
  | nil => exact Nat.le_refl _
  | cons u rest ih => exact Nat.le_trans (nextTicketUse s u) (ih (s.use u))

theorem sentBelow (s : Session σ) (uses : List Use) :
    ∀ ticket ∈ tickets (s.sent uses), ticket < (s.useAll uses).nextTicket := by
  induction uses generalizing s with
  | nil => simp [sent, tickets]
  | cons u rest ih =>
    intro ticket member
    rw [sent, ticketsAppend, List.mem_append] at member
    rcases member with now | later
    · obtain ⟨same, next⟩ := ticketPosted now
      calc ticket = s.nextTicket := same
        _ < s.nextTicket + 1 := Nat.lt_succ_self _
        _ = (s.use u).nextTicket := next.symm
        _ ≤ ((s.use u).useAll rest).nextTicket := nextTicketUseAll (s.use u) rest
    · exact ih (s.use u) ticket later

theorem settleLeft {start : Worker σ} {commands : List Command} {s : Session σ}
    (follows : Follows start commands s) (goes : s.ending = none)
    (on : (start.run commands).ending = none) (ended : s.settle.ending ≠ none) :
    s.holders = 0 := by
  have begun : s.start.ending = none := by
    unfold Session.start
    split <;> exact goes
  have hands := (handsServeAll s.start.mailbox.size s.start).2.trans (handsStart s).2
  rw [settle, retireIf] at ended
  split at ended
  case isTrue idle => exact hands.symm.trans idle.2.1
  case isFalse =>
    obtain ⟨fate, fell⟩ := Option.ne_none_iff_exists'.mp ended
    have met := serveAllFell _ (followsStart follows) begun fell
    rw [on] at met
    cases met

theorem endedLeft {start : Worker σ} {commands : List Command} {s : Session σ} {uses : List Use}
    (follows : Follows start commands s) (goes : s.ending = none)
    (on : (start.run (commands ++ s.sent uses)).ending = none)
    (ended : (s.useAll uses).ending ≠ none) : s.Left uses := by
  induction uses generalizing commands s with
  | nil => exact absurd goes ended
  | cons u rest ih =>
    have now := Worker.runGoesOn on
    cases ending : (s.use u).ending with
    | none =>
      rw [sent, ← List.append_assoc] at on
      obtain ⟨before, later, rfl, running, alone⟩ := ih (followsUse follows u) ending on ended
      exact ⟨u :: before, later, rfl, running, alone⟩
    | some fate =>
      -- Nothing that the worker met ended the session, so letting it run did.
      rcases u.sides with outside | rfl | rfl
      · rw [(useOutside s outside).2.2.1, goes] at ending
        cases ending
      · rw [serveFell follows goes ending] at now
        cases now
      · have settled : s.settle.ending ≠ none := by
          rw [show s.settle.ending = some fate from ending]
          exact Option.some_ne_none fate
        exact ⟨[], rest, rfl, goes, settleLeft follows goes now settled⟩

structure Met (start : Worker σ) (left : Prop) (met lost : List Command) (s : Session σ) :
    Prop where
  ran : Ran start met s
  accounted : start.Accounted met
  running : s.ending = none → s.mailbox.toList = lost ∧ (start.run met).ending = none
  ended : ∀ fate, s.ending = some fate → Fell start.pump left met lost fate.outcome

theorem followsMet {start : Worker σ} {left : Prop} {commands : List Command} {s : Session σ}
    (intact : start.pump.Intact) (alone : start.waiters = []) (follows : Follows start commands s)
    (leaving : (start.run commands).ending = none → s.ending ≠ none → left) :
    ∃ met lost, met ++ lost = commands ∧ Met start left met lost s := by
  cases follows with
  | @running handled ran on goes split =>
    refine ⟨handled, s.mailbox.toList, split, ran, Worker.accountedOn on, fun _ => ⟨rfl, on⟩, ?_⟩
    intro fate ends
    rw [goes] at ends
    cases ends
  | @ended fate ran fell ends =>
    obtain ⟨before, c, lost, rfl, on, cut⟩ := Worker.runCutAt fell
    have same := Worker.runCut cut lost
    refine ⟨before ++ [c], lost, rfl, ⟨same ▸ ran.worker, same ▸ ran.answers⟩,
      Worker.accountedSnoc (Worker.accountedOn on) on c, ?_, ?_⟩
    · intro goes
      rw [ends] at goes
      cases goes
    · intro fate' ends'
      cases ends.symm.trans ends'
      exact Worker.fellEnded intact alone on cut lost
  | retired ran on ends =>
    refine ⟨commands, [], List.append_nil _, ran, Worker.accountedOn on, ?_, ?_⟩
    · intro goes
      rw [ends] at goes
      cases goes
    · intro fate ends'
      cases ends.symm.trans ends'
      rw [ran.worker, (Worker.runFollows start commands).1]
      exact .deserted (Worker.unbrokenOn on) (leaving on (by simp [ends]))

theorem metShares {start : Worker σ} {left : Prop} (alone : start.waiters = [])
    {met lost : List Command} {s : Session σ} (here : Met start left met lost s) :
    (addressees s.answers.toList ++ s.worker.waiters ++ tickets lost).Perm
      (tickets (met ++ lost)) := by
  have accounted := here.accounted.append_right (tickets lost)
  rwa [← here.ran.answers, ← here.ran.worker, alone, List.nil_append, ← ticketsAppend]
    at accounted

omit [Sink σ] in
theorem outcomeEnded {s : Session σ} (ended : s.ending ≠ none) (ticket : Ticket) :
    s.outcome ticket ≠ none ∧
      (ticket ∉ addressees s.answers.toList → s.outcome ticket = some (.error .closed)) := by
  cases answered : s.answers.toList.lookup ticket with
  | some answer =>
    rw [outcomeOk.mpr answered]
    refine ⟨by simp, fun unanswered => ?_⟩
    rw [addresseesSilent unanswered] at answered
    cases answered
  | none =>
    rw [outcomeSilent answered, if_neg ended]
    exact ⟨by simp, fun _ => rfl⟩

theorem endedSame {s : Session σ} {fate : Ending} (ending : s.ending = some fate)
    (later : List Use) :
    (s.useAll later).join = some fate.outcome ∧
      ∀ ticket, (s.useAll later).outcome ticket = s.outcome ticket ∧
        (s.useAll later).outcome ticket ≠ none := by
  obtain ⟨_, answers, still⟩ := endedUseAll ending later
  refine ⟨by rw [join, still]; rfl, fun ticket => ⟨?_, (outcomeEnded (by simp [still]) ticket).1⟩⟩
  simp only [outcome, answers, isRunning, still, ending]

theorem endedClosed {s : Session σ} {fate : Ending} (ending : s.ending = some fate)
    (known : ∀ ticket ∈ addressees s.answers.toList, ticket < s.nextTicket) (later : List Use) :
    let t := s.useAll later
    t.isRunning = false ∧ (∀ c, t.send c = .error .closed) ∧
      (∀ q, (t.ask q).2.outcome (t.ask q).1 = some (.error .closed)) ∧
      ∀ ticket, s.nextTicket ≤ ticket → t.outcome ticket = some (.error .closed) := by
  intro t
  obtain ⟨_, answers, still⟩ := endedUseAll ending later
  have new : ∀ ticket, s.nextTicket ≤ ticket → t.outcome ticket = some (.error .closed) := by
    intro ticket late
    apply (outcomeEnded (by simp [t, still]) ticket).2
    intro answered
    rw [answers] at answered
    exact absurd (known ticket answered) (Nat.not_lt.mpr late)
  refine ⟨by rw [isRunning, still]; rfl, fun c => sendClosed still c, fun q => ?_, new⟩
  rw [askClosed still]
  exact new t.nextTicket (nextTicketUseAll s later)

/- The answers, the waiters and the lost commands share the calls among them, so
that none is answered twice, and one that is not answered at the end is closed.
A session that is let run ends at the latest when nobody holds it. -/
theorem endIsFinal (sink : σ) (warnDepth : Nat) (uses : List Use) :
    let p := Pump.observed sink warnDepth
    let begun := Session.new ({ sink } : Observed σ) warnDepth
    let s := begun.useAll uses
    let calls := tickets (begun.sent uses)
    ∃ met lost, met ++ lost = begun.sent uses ∧ s.worker.pump = (p.feed (heard met)).pump ∧
      calls.Nodup ∧
      (addressees s.answers.toList ++ s.worker.waiters ++ tickets lost).Perm calls ∧
      (s.ending = none → s.mailbox.toList = lost ∧ Unbroken p met) ∧
      (s.settle.ending = none → s.holders ≠ 0) ∧
      (s.ending ≠ none → ∃ outcome, s.join = some outcome ∧ Fell p (begun.Left uses) met lost outcome ∧
        (∀ stats, outcome = .ok stats →
          s.worker.pump.sink.offered ++ s.worker.pump.waiting = met.filterMap Command.segment? ∧
          stats.queueDepth = s.worker.pump.waiting.length ∧
          stats.queuedBytes = totalSize s.worker.pump.waiting) ∧
        (∀ ticket ∈ s.worker.waiters ++ tickets lost, s.outcome ticket = some (.error .closed)) ∧
        ∀ later, let t := s.useAll later
          t.worker.pump.sink.offers = s.worker.pump.sink.offers ∧ t.join = some outcome ∧
          t.isRunning = false ∧ (∀ c, t.send c = .error .closed) ∧
          (∀ q, (t.ask q).2.outcome (t.ask q).1 = some (.error .closed)) ∧
          (∀ ticket, t.outcome ticket = s.outcome ticket ∧ t.outcome ticket ≠ none) ∧
          ∀ ticket, s.nextTicket ≤ ticket → t.outcome ticket = some (.error .closed)) := by
  intro p begun s calls
  let start : Worker (Observed σ) := { pump := p }
  have follows : Follows start (begun.sent uses) s := followsAll (followsNew _ _) uses
  have leaving : (start.run (begun.sent uses)).ending = none → s.ending ≠ none → begun.Left uses :=
    endedLeft (followsNew _ _) rfl
  obtain ⟨met, lost, split, here⟩ := followsMet (Pump.intactNew _ _) rfl follows leaving
  have pump : s.worker.pump = (p.feed (heard met)).pump := by
    rw [here.ran.worker, (Worker.runFollows start met).1]
  have distinct : calls.Nodup := (sentTickets begun uses).1.imp Nat.ne_of_lt
  have shared := metShares rfl here
  rw [split] at shared
  have held : s.settle.ending = none → s.holders ≠ 0 := fun running alone =>
    (settleRunning running).2 ((handsSettle s).2.trans alone)
  refine ⟨met, lost, split, pump, distinct, shared, ?_, held, fun ended => ?_⟩
  · intro running
    obtain ⟨mailbox, on⟩ := here.running running
    exact ⟨mailbox, Worker.unbrokenOn on⟩
  · obtain ⟨fate, ending⟩ := Option.ne_none_iff_exists'.mp ended
    have fell := here.ended fate ending
    refine ⟨fate.outcome, by rw [join, ending]; rfl, fell, ?_, ?_, fun later => ?_⟩
    · intro stats ok
      rw [ok] at fell
      rw [pump]
      exact (fellDiscards fell).2
    · intro ticket open'
      apply (outcomeEnded ended ticket).2
      rw [List.append_assoc] at shared
      have apart := (List.nodup_append.mp (shared.nodup_iff.mpr distinct)).2.2
      exact fun answered => apart ticket answered ticket open' rfl
    · have known : ∀ ticket ∈ addressees s.answers.toList, ticket < s.nextTicket := fun _ answered =>
        sentBelow begun uses _
          (shared.subset (List.mem_append_left _ (List.mem_append_left _ answered)))
      have worker := (endedUseAll ending later).1
      have same := endedSame ending later
      obtain ⟨running, sent, asked, new⟩ := endedClosed ending known later
      exact ⟨by rw [worker], same.1, running, sent, asked, same.2, new⟩

theorem endIsFinalShutdown :
    let uses : List Use :=
      [.deliver ⟨⟨#[1, 2]⟩⟩, .ask .waitDrained, .ask .shutdown, .ask .stats, .settle]
    let s := (Session.new ({ sink := ({} : Script) } : Observed Script) 4).useAll uses
    s.ending ≠ none ∧ s.outcome 0 = some (.error .closed) ∧ s.outcome 1 = some (.ok .done) ∧
      s.outcome 2 = some (.error .closed) ∧
      ∃ stats, s.join = some (.ok stats) ∧ stats.queueDepth = 1 ∧ stats.queuedBytes = 2 ∧
        ∀ later ticket, (s.useAll later).outcome ticket = s.outcome ticket := by
  intro uses s
  have ended : s.ending ≠ none := by decide
  obtain ⟨_, _, _, _, _, _, _, _, last⟩ := endIsFinal ({} : Script) 4 uses
  obtain ⟨_, _, _, _, _, final⟩ := last ended
  exact ⟨ended, by decide, by decide, by decide, _, rfl, rfl, rfl, fun later ticket =>
    ((final later).2.2.2.2.2.1 ticket).1⟩

end Session
end SegmentPump
