import SegmentPump.Proofs.Pump.Reaction
import SegmentPump.Sink.Signal

/-! A pump in front of a channel whose consumer is there. Nothing is refused, and
what leaves the backlog is in the channel. The slot and the channel fill
together, and only a completion empties the slot. -/
namespace SegmentPump

theorem Channel.answer {c after : Channel} {segment : Segment} {reply : Reply}
    (consumed : c.consumed = true) (answer : Sink.offer c segment = (reply, after)) :
    reply = .accepted ∧ after = { c with pending := c.pending.push segment } := by
  rw [Sink.offer, instSinkChannel] at answer
  simp only [consumed, if_true, Prod.mk.injEq] at answer
  exact ⟨answer.1.symm, consumed ▸ answer.2.symm⟩

namespace Pump

def piped (p : Pump Channel) : List Segment := p.sink.pending.toList

structure Connected (p : Pump Channel) : Prop where
  consumed : p.sink.consumed = true
  latched : p.Latched

structure Passes (p : Pump Channel) (e : Event) (q : Pump Channel) : Prop where
  connected : q.Connected
  order : q.piped ++ q.waiting = p.piped ++ p.waiting ++ e.arrivals
  balance : q.piped.length + p.slot.load = p.piped.length + q.slot.load + e.completions

variable {p : Pump Channel}

theorem passesEnter (connected : p.Connected) {e : Event} (expected : p.Expects e) :
    Passes p e (p.enter e).pump where
  connected := ⟨by rw [enterSink]; exact connected.consumed, enterLatched connected.latched e⟩
  order := by rw [piped, enterSink, enterWaiting, List.append_assoc, piped]
  balance := by
    have load := enterLoad expected
    rw [piped, enterSink, piped]
    omega

theorem passesOffer {before : Pump Channel} {e : Event} (entered : Passes before e p)
    (clear : p.Clear) {segment : Segment} {rest : List Segment} {sink : Channel}
    (head : p.waiting = segment :: rest)
    (sent : sink = { p.sink with pending := p.sink.pending.push segment }) :
    Passes before e ((p.handOver segment rest sink).fill segment).pump := by
  have order := entered.order
  have balance := entered.balance
  have piped : ((p.handOver segment rest sink).fill segment).pump.piped = p.piped ++ [segment] := by
    simp [Pump.piped, fill, sent]
  have waiting : ((p.handOver segment rest sink).fill segment).pump.waiting = rest :=
    waitingHandOver p segment rest sink
  refine ⟨⟨?_, fun _ => clear.1⟩, ?_, ?_⟩
  · simpa [fill, sent] using entered.connected.consumed
  · rw [piped, waiting, ← order, head, List.append_assoc, List.singleton_append]
  · rw [clear.2, Slot.load] at balance
    rw [piped, List.length_append, List.length_singleton, fill, Slot.load]
    omega

theorem passes (connected : p.Connected) {e : Event} (expected : p.Expects e) :
    (p.react e).result = .ok () ∧ Passes p e (p.react e).pump := by
  have way := applied connected.latched e
  have entered := passesEnter connected expected
  rw [reactPump, reactResult]
  generalize p.apply e = s at way ⊢
  cases way with
  | unexpected event idle =>
    rw [expected event] at idle
    cases idle
  | held => exact ⟨enterResult p e, entered⟩
  | advanced _ clear advance =>
    cases advance with
    | rest => exact ⟨rfl, entered⟩
    | offer head answer =>
      obtain ⟨accepted, sent⟩ := Channel.answer entered.connected.consumed answer
      subst accepted
      exact ⟨rfl, passesOffer entered clear head sent⟩

end Pump
end SegmentPump
