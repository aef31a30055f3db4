import SegmentPump.Proofs.Pump.Course
import SegmentPump.Session.Worker

/-! What one command does to the worker of a session, and what a list of them
does. A command is an event of the pump, a query or nothing; the worker lets the
pump handle the event, answers the query, and tells everybody who waits once the
pump is drained. -/
namespace SegmentPump

variable {σ : Type}

namespace Command

def event? : Command → Option Event
  | .arrived segment => some (.arrived segment)
  | .signal (.lifecycle .opened) => some .sinkReady
  | .signal .updateEnd => some .completed
  | _ => none

def stops : Command → Bool
  | .query _ .shutdown => true
  | _ => false

def opens : Command → Bool
  | .signal (.lifecycle .opened) => true
  | _ => false

def ticket? : Command → Option Ticket
  | .query ticket _ => some ticket
  | _ => none

def segment? : Command → Option Segment
  | .arrived segment => some segment
  | _ => none

def waiter : Command → List Ticket
  | .query ticket .waitDrained => [ticket]
  | _ => []

def reply (c : Command) (stats : Stats) : List (Ticket × Answer) :=
  match c with
  | .query ticket .stats => [(ticket, .stats stats)]
  | .query ticket .shutdown => [(ticket, .done)]
  | _ => []

theorem eventArrivals (c : Command) : (c.event?.toList.flatMap Event.arrivals) = c.segment?.toList := by
  rcases c with _ | ⟨⟨_ | _ | _⟩ | _⟩ | _ <;> rfl

theorem stopsNoEvent {c : Command} (stops : c.stops = true) : c.event? = none := by
  rcases c with _ | _ | ⟨_, _ | _ | _⟩ <;> first | rfl | cases stops

theorem completedEvent {c : Command} (event : c.event? = some .completed) :
    c = .signal .updateEnd := by
  rcases c with _ | ⟨⟨_ | _ | _⟩ | _⟩ | _ <;> first | rfl | cases event

theorem eventCompletions (c : Command) :
    (c.event?.map Event.completions).getD 0 = [c].count (.signal .updateEnd) := by
  rcases c with _ | ⟨⟨_ | _ | _⟩ | _⟩ | _ <;> simp [event?, Event.completions]

theorem stopsShutdown {c : Command} (stops : c.stops = true) :
    ∃ ticket, c = .query ticket .shutdown := by
  rcases c with _ | _ | ⟨ticket, _ | _ | _⟩ <;> first | exact ⟨ticket, rfl⟩ | cases stops

end Command

theorem Signal.readEvent (previous : Lifecycle) (signal : Signal) :
    (signal.read previous).event = (Command.signal signal).event? := by
  rcases signal with ⟨_ | _ | _⟩ | _ <;> rfl

def Ending.ofResult : Except Fault Unit → Option Ending
  | .ok _ => none
  | .error (.pump error) => some (.failed error)
  | .error _ => some .crashed

namespace Worker

def tell (waiters : List Ticket) (p : Pump σ) (ending : Option Ending) :
    List (Ticket × Answer) × List Ticket :=
  if ending = none ∧ p.drained = true then
    (waiters.map fun ticket => (ticket, .stats p.stats), [])
  else ([], waiters)

theorem tellNobody (p : Pump σ) (fate : Option Ending) : tell [] p fate = ([], []) := by
  unfold tell
  split <;> rfl

theorem tellOne (ticket : Ticket) (p : Pump σ) :
    tell [ticket] p none =
      if p.drained = true then ([(ticket, .stats p.stats)], []) else ([], [ticket]) := by
  simp [tell]

structure Turned (w : Worker σ) (c : Command) (p : Pump σ) (fate : Option Ending)
    (t : Turn σ) : Prop where
  pump : t.worker.pump = p
  ending : t.ending = fate
  answers : t.answers = c.reply w.pump.stats ++ (tell (w.waiters ++ c.waiter) p fate).1
  waiters : t.worker.waiters = (tell (w.waiters ++ c.waiter) p fate).2

theorem carriedOn (w : Worker σ) {c : Command} (next : Worker σ) (notices : List Notice)
    (waiters : next.waiters = w.waiters ++ c.waiter) :
    Turned w c next.pump none (next.carryOn (c.reply w.pump.stats) notices) := by
  cases drained : next.pump.drained with
  | true => constructor <;> simp [carryOn, tell, drained, waiters]
  | false => constructor <;> simp [carryOn, tell, drained, waiters]

theorem answersOpen {w : Worker σ} {c : Command} {p : Pump σ}
    {fate : Option Ending} {t : Turn σ} (turn : Turned w c p fate t) (runs : c.stops = false)
    (ticket : Ticket) : (ticket, Answer.done) ∉ t.answers := by
  have reply : (ticket, Answer.done) ∉ c.reply w.pump.stats := by
    rcases c with _ | _ | ⟨_, _ | _ | _⟩ <;> simp [Command.reply, Command.stops] at runs ⊢
  have told : (ticket, Answer.done) ∉ (tell (w.waiters ++ c.waiter) p fate).1 := by
    unfold tell
    split <;> simp
  rw [turn.answers, List.mem_append]
  exact not_or.mpr ⟨reply, told⟩

variable [Sink σ]

def pumped (w : Worker σ) (c : Command) : Pump σ :=
  match c.event? with
  | some e => (w.pump.react e).pump
  | none => w.pump

def verdict (w : Worker σ) (c : Command) : Option Ending :=
  match c.event? with
  | some e => Ending.ofResult (w.pump.react e).result
  | none => if c.stops then some (.stopped w.pump.stats) else none

theorem pumpedWays (w : Worker σ) (c : Command) :
    c.segment? = none ∧ w.pumped c = w.pump ∨
      ∃ e, e.arrivals = c.segment?.toList ∧ w.pumped c = (w.pump.react e).pump := by
  have arrivals := c.eventArrivals
  cases event : c.event? with
  | none =>
    rw [event] at arrivals
    exact .inl ⟨Option.toList_eq_nil_iff.mp arrivals.symm, by rw [pumped, event]⟩
  | some e =>
    rw [event, Option.toList_some, List.flatMap_singleton] at arrivals
    exact .inr ⟨e, arrivals, by rw [pumped, event]⟩

theorem pumpedReady {w : Worker σ} (latched : w.pump.Latched) (c : Command) :
    (w.pumped c).ready = (w.pump.ready || c.opens) := by
  cases event : c.event? with
  | none =>
    have silent : c.opens = false := by
      rcases c with _ | ⟨⟨_ | _ | _⟩ | _⟩ | _ <;> first | rfl | cases event
    simp [pumped, event, silent]
  | some e =>
    have opens : c.opens = decide (e = .sinkReady) := by
      rcases c with _ | ⟨⟨_ | _ | _⟩ | _⟩ | _ <;> cases event <;> rfl
    simp only [pumped, event, Pump.reactReady latched, opens]

theorem passed (w : Worker σ) {c : Command} {e : Event} (event : c.event? = some e)
    (lifecycle : Lifecycle) (earlier : List Notice) :
    Turned w c (w.pumped c) (w.verdict c) ({ w with lifecycle }.pass e earlier) := by
  have silent : c.waiter = [] ∧ c.reply w.pump.stats = [] := by
    rcases c with _ | _ | ⟨_, _ | _ | _⟩ <;> first | exact ⟨rfl, rfl⟩ | cases event
  have pumped : w.pumped c = (w.pump.react e).pump := by rw [Worker.pumped, event]
  have verdict : w.verdict c = Ending.ofResult (w.pump.react e).result := by rw [Worker.verdict, event]
  rw [pumped, verdict]
  rcases result : (w.pump.react e).result with fault | _
  · cases fault <;> constructor <;> simp [pass, result, Ending.ofResult, tell, silent]
  · have on := carriedOn w (c := c) { w with lifecycle, pump := (w.pump.react e).pump }
      (earlier ++ (w.pump.react e).notices) (by simp [silent.1])
    rw [silent.2] at on
    simpa [pass, result, Ending.ofResult] using on

theorem handled (w : Worker σ) (c : Command) :
    Turned w c (w.pumped c) (w.verdict c) (w.handle c) := by
  cases c with
  | arrived segment => exact passed w rfl w.lifecycle []
  | signal signal =>
    cases event : (Command.signal signal).event? with
    | some e =>
      have reading := (signal.readEvent w.lifecycle).trans event
      simp only [handle, reading]
      exact passed w event _ _
    | none =>
      have reading := (signal.readEvent w.lifecycle).trans event
      simp only [handle, reading, pumped, verdict, event]
      exact carriedOn w { w with lifecycle := (signal.read w.lifecycle).lifecycle } _
        (List.append_nil _).symm
  | query ticket query =>
    cases query with
    | stats => exact carriedOn w w [] (List.append_nil _).symm
    | waitDrained => exact carriedOn w { w with waiters := w.waiters ++ [ticket] } [] rfl
    | shutdown => constructor <;> simp [handle, stop, pumped, verdict, Command.event?,
        Command.stops, Command.reply, Command.waiter, tell]

end Worker
end SegmentPump
