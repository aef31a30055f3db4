import SegmentPump.Proofs.Session.Turn

/-! The worker of a session over a whole mailbox. What becomes of the pump is the
fold of its reactions over the events that the commands mean, cut at the first
shutdown and at the first failure; `runFollows` says so. -/
namespace SegmentPump

variable {σ : Type}

def heard (commands : List Command) : List Event :=
  (commands.takeWhile fun c => !c.stops).filterMap Command.event?

def tickets (commands : List Command) : List Ticket := commands.filterMap Command.ticket?

theorem ticketsAppend (xs ys : List Command) : tickets (xs ++ ys) = tickets xs ++ tickets ys :=
  List.filterMap_append

theorem ticketsCons (c : Command) (rest : List Command) :
    tickets (c :: rest) = tickets [c] ++ tickets rest :=
  ticketsAppend [c] rest

def addressees (answers : List (Ticket × Answer)) : List Ticket := answers.map Prod.fst

@[simp] theorem addresseesAppend (xs ys : List (Ticket × Answer)) :
    addressees (xs ++ ys) = addressees xs ++ addressees ys :=
  List.map_append

theorem heardStops {c : Command} (stops : c.stops = true) (rest : List Command) :
    heard (c :: rest) = [] := by
  simp [heard, stops]

theorem heardCons {c : Command} (runs : c.stops = false) (rest : List Command) :
    heard (c :: rest) = c.event?.toList ++ heard rest := by
  cases event : c.event? <;> simp [heard, runs, event]

theorem heardArrivals (commands : List Command) :
    arrivals (heard commands) <+: commands.filterMap Command.segment? := by
  induction commands with
  | nil => exact List.prefix_rfl
  | cons c rest ih =>
    cases stops : c.stops with
    | true =>
      rw [heardStops stops]
      exact List.nil_prefix
    | false =>
      rw [heardCons stops, arrivalsAppend, arrivals, c.eventArrivals]
      cases segment : c.segment? with
      | none => simpa [segment] using ih
      | some s => simpa [segment] using ih

namespace Worker

variable [Sink σ]

def run (w : Worker σ) : List Command → Turn σ
  | [] => { worker := w }
  | c :: rest =>
    let first := w.handle c
    match first.ending with
    | some _ => first
    | none =>
      let later := first.worker.run rest
      { later with
        answers := first.answers ++ later.answers
        notices := first.notices ++ later.notices }

theorem runEnded {w : Worker σ} {c : Command} {ending : Ending}
    (ended : (w.handle c).ending = some ending) (rest : List Command) :
    w.run (c :: rest) = w.handle c := by
  simp [run, ended]

theorem runOn {w : Worker σ} {c : Command} (on : (w.handle c).ending = none)
    (rest : List Command) :
    w.run (c :: rest) =
      { (w.handle c).worker.run rest with
        answers := (w.handle c).answers ++ ((w.handle c).worker.run rest).answers
        notices := (w.handle c).notices ++ ((w.handle c).worker.run rest).notices } := by
  simp [run, on]

def close (r : Run σ) (commands : List Command) : Option Ending :=
  match r.result with
  | .ok _ => if commands.any Command.stops then some (.stopped r.pump.stats) else none
  | .error fault => Ending.ofResult (.error fault)

theorem runFollows (w : Worker σ) (commands : List Command) :
    (w.run commands).worker.pump = (w.pump.feed (heard commands)).pump ∧
      (w.run commands).ending = close (w.pump.feed (heard commands)) commands := by
  induction commands generalizing w with
  | nil => exact ⟨rfl, rfl⟩
  | cons c rest ih =>
    have turn := handled w c
    cases stops : c.stops with
    | true =>
      have event := Command.stopsNoEvent stops
      have ended : (w.handle c).ending = some (.stopped w.pump.stats) := by
        rw [turn.ending, verdict, event, stops]
        rfl
      have pump : (w.handle c).worker.pump = w.pump := by rw [turn.pump, pumped, event]
      rw [runEnded ended, heardStops stops]
      exact ⟨pump, by simp [ended, close, Pump.feed, stops]⟩
    | false =>
      have any : (c :: rest).any Command.stops = rest.any Command.stops := by simp [stops]
      cases event : c.event? with
      | none =>
        have on : (w.handle c).ending = none := by
          rw [turn.ending, verdict, event, stops]
          rfl
        have pump : (w.handle c).worker.pump = w.pump := by rw [turn.pump, pumped, event]
        have later := ih (w.handle c).worker
        rw [pump] at later
        rw [runOn on, heardCons stops, event, close, any]
        exact later
      | some e =>
        have pump : (w.handle c).worker.pump = (w.pump.react e).pump := by
          rw [turn.pump, pumped, event]
        have ending : (w.handle c).ending = Ending.ofResult (w.pump.react e).result := by
          rw [turn.ending, verdict, event]
        rw [heardCons stops, event]
        cases result : (w.pump.react e).result with
        | error fault =>
          obtain ⟨same, failed⟩ := Pump.feedFailed result (heard rest)
          have ended : ∃ end', Ending.ofResult (.error fault) = some end' := by
            cases fault <;> exact ⟨_, rfl⟩
          obtain ⟨end', fate⟩ := ended
          rw [result, fate] at ending
          rw [runEnded ending]
          refine ⟨pump.trans same.symm, ?_⟩
          simp only [close, Option.toList_some, List.singleton_append, failed]
          rw [ending, fate]
        | ok _ =>
          obtain ⟨same, outcome⟩ := Pump.feedOk result (heard rest)
          have on : (w.handle c).ending = none := by rw [ending, result]; rfl
          have later := ih (w.handle c).worker
          rw [pump] at later
          rw [runOn on]
          refine ⟨later.1.trans same.symm, ?_⟩
          simp only [close, Option.toList_some, List.singleton_append, outcome, same, any]
          exact later.2

theorem runSplit {w : Worker σ} {before : List Command} (on : (w.run before).ending = none)
    (later : List Command) :
    w.run (before ++ later) =
      { (w.run before).worker.run later with
        answers := (w.run before).answers ++ ((w.run before).worker.run later).answers
        notices := (w.run before).notices ++ ((w.run before).worker.run later).notices } := by
  induction before generalizing w with
  | nil => simp [run]
  | cons c rest ih =>
    cases ending : (w.handle c).ending with
    | some fate =>
      rw [runEnded ending, ending] at on
      cases on
    | none =>
      rw [runOn ending] at on
      rw [List.cons_append, runOn ending, runOn ending, ih on]
      simp [List.append_assoc]

theorem runOne (w : Worker σ) (c : Command) : w.run [c] = w.handle c := by
  cases ending : (w.handle c).ending with
  | some fate => exact runEnded ending []
  | none =>
    rw [runOn ending]
    simp [run, ← ending]

theorem runCut {w : Worker σ} {before : List Command} {fate : Ending}
    (ended : (w.run before).ending = some fate) (later : List Command) :
    w.run (before ++ later) = w.run before := by
  induction before generalizing w with
  | nil => cases ended
  | cons c rest ih =>
    cases ending : (w.handle c).ending with
    | some _ => rw [List.cons_append, runEnded ending, runEnded ending]
    | none =>
      rw [runOn ending] at ended
      rw [List.cons_append, runOn ending, runOn ending, ih ended]

theorem runGoesOn {w : Worker σ} {before later : List Command}
    (on : (w.run (before ++ later)).ending = none) : (w.run before).ending = none := by
  cases ending : (w.run before).ending with
  | none => rfl
  | some fate =>
    rw [runCut ending, ending] at on
    cases on

omit [Sink σ] in
theorem tellEverybody (waiters : List Ticket) (p : Pump σ) (fate : Option Ending) :
    addressees (tell waiters p fate).1 ++ (tell waiters p fate).2 = waiters := by
  unfold tell
  split <;> simp [addressees, Function.comp_def]

theorem replyOrWait (c : Command) (stats : Stats) :
    addressees (c.reply stats) ++ c.waiter = tickets [c] := by
  rcases c with _ | _ | ⟨_, _ | _ | _⟩ <;> rfl

omit [Sink σ] in
theorem turnedCalls {w : Worker σ} {c : Command} {p : Pump σ} {fate : Option Ending} {t : Turn σ}
    (turn : Turned w c p fate t) :
    (addressees t.answers ++ t.worker.waiters).Perm (w.waiters ++ tickets [c]) := by
  have told := tellEverybody (w.waiters ++ c.waiter) p fate
  rw [turn.answers, turn.waiters, addresseesAppend, List.append_assoc, told,
    ← replyOrWait c w.pump.stats]
  exact List.perm_append_comm_assoc _ _ _

theorem runTickets (w : Worker σ) (commands : List Command) :
    ∀ answer ∈ (w.run commands).answers, answer.1 ∈ w.waiters ++ tickets commands := by
  induction commands generalizing w with
  | nil => simp [run]
  | cons c rest ih =>
    have calls := (turnedCalls (handled w c)).subset
    have answered (answer) (member : answer ∈ (w.handle c).answers) :
        answer.1 ∈ w.waiters ++ tickets [c] :=
      calls (List.mem_append_left _ (List.mem_map_of_mem member))
    rw [ticketsCons, ← List.append_assoc]
    intro answer member
    cases ending : (w.handle c).ending with
    | some fate =>
      rw [runEnded ending] at member
      exact List.mem_append_left _ (answered answer member)
    | none =>
      rw [runOn ending] at member
      rcases List.mem_append.mp member with now | later
      · exact List.mem_append_left _ (answered answer now)
      · rcases List.mem_append.mp (ih _ answer later) with old | new
        · exact List.mem_append_left _ (calls (List.mem_append_right _ old))
        · exact List.mem_append_right _ new

theorem lookupFresh {answers : List (Ticket × Answer)} {known : List Ticket} {ticket : Ticket}
    (all : ∀ answer ∈ answers, answer.1 ∈ known) (fresh : ticket ∉ known) :
    answers.lookup ticket = none := by
  rw [List.lookup_eq_none_iff]
  intro answer member
  have different : ticket ≠ answer.1 := fun same => fresh (same ▸ all answer member)
  simpa using different

theorem runStats {w : Worker σ} (alone : w.waiters = []) {before : List Command}
    {ticket : Ticket} (fresh : ticket ∉ tickets before) (later : List Command) :
    (w.run (before ++ .query ticket .stats :: later)).answers.lookup ticket =
      if (w.run before).ending = none then some (.stats (w.run before).worker.pump.stats)
      else none := by
  have earlier : (w.run before).answers.lookup ticket = none := by
    apply lookupFresh (runTickets w before)
    simpa [alone] using fresh
  cases ending : (w.run before).ending with
  | some fate => rw [runCut ending, earlier, if_neg (by simp)]
  | none =>
    have turn := handled (w.run before).worker (.query ticket .stats)
    have on : ((w.run before).worker.handle (.query ticket .stats)).ending = none := turn.ending
    rw [runSplit ending, runOn on, List.lookup_append, earlier, turn.answers, if_pos rfl]
    simp [Command.reply]

end Worker
end SegmentPump
