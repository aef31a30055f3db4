import SegmentPump.Proofs.Backlog
import SegmentPump.Pump.React

/-! What one event can do to a pump. `applied` names the three ways in which a
step goes: the event was not expected, it begins no append, or it hands the head
of the backlog to the sink. Everything said about pumps is read off these ways. -/
namespace SegmentPump

variable {σ : Type}

def Slot.load : Slot → Nat
  | .idle => 0
  | .inFlight => 1

def Event.arrivals : Event → List Segment
  | .arrived segment => [segment]
  | _ => []

def Event.completions : Event → Nat
  | .completed => 1
  | _ => 0

namespace Step

@[simp] theorem afterPump (s : Step σ) (earlier : List Notice) : (s.after earlier).pump = s.pump :=
  rfl

@[simp] theorem afterResult (s : Step σ) (earlier : List Notice) :
    (s.after earlier).result = s.result := rfl

@[simp] theorem donePump (p : Pump σ) : (Step.done p).pump = p := rfl

@[simp] theorem doneResult (p : Pump σ) : (Step.done p).result = .ok () := rfl

@[simp] theorem failPump (p : Pump σ) (fault : Fault) : (Step.fail p fault).pump = p := rfl

@[simp] theorem failResult (p : Pump σ) (fault : Fault) :
    (Step.fail p fault).result = .error fault := rfl

end Step

namespace Pump

def waiting (p : Pump σ) : List Segment := p.backlog.toList

def Latched (p : Pump σ) : Prop := p.slot = .inFlight → p.ready = true

def Clear (p : Pump σ) : Prop := p.ready = true ∧ p.slot = .idle

theorem clearIff {p : Pump σ} : (p.ready && p.slot == .idle) = true ↔ p.Clear := by
  simp [Clear]

def Expects (p : Pump σ) (e : Event) : Prop := e = .completed → p.slot = .inFlight

theorem drainedIff (p : Pump σ) : p.drained = true ↔ p.waiting = [] ∧ p.slot = .idle := by
  simp [drained, waiting, Backlog.isEmptyToList]

def handOver (p : Pump σ) (segment : Segment) (rest : List Segment) (sink : σ) : Pump σ :=
  { p with
    backlog := { segments := .ofList rest, bytes := p.backlog.bytes - segment.size }
    sink }

@[simp] theorem waitingHandOver (p : Pump σ) (segment : Segment) (rest : List Segment) (sink : σ) :
    (p.handOver segment rest sink).waiting = rest := by
  simp [waiting, handOver, Backlog.toList]

@[simp] theorem readyHandOver (p : Pump σ) (segment : Segment) (rest : List Segment) (sink : σ) :
    (p.handOver segment rest sink).ready = p.ready := rfl

@[simp] theorem sinkHandOver (p : Pump σ) (segment : Segment) (rest : List Segment) (sink : σ) :
    (p.handOver segment rest sink).sink = sink := rfl

def conclude (p : Pump σ) (segment : Segment) : Reply → Step σ
  | .accepted => p.fill segment
  | .refused refusal => .fail p (.pump (.sink refusal))
  | .crashed => .fail p .sinkCrashed

def enter (p : Pump σ) : Event → Step σ
  | .arrived segment => p.receive segment
  | .sinkReady => p.latch
  | .completed => .done p.release

@[simp] theorem enterResult (p : Pump σ) (e : Event) : (p.enter e).result = .ok () := by
  cases e <;> rfl

@[simp] theorem enterSink (p : Pump σ) (e : Event) : (p.enter e).pump.sink = p.sink := by
  cases e <;> rfl

@[simp] theorem enterWaiting (p : Pump σ) (e : Event) :
    (p.enter e).pump.waiting = p.waiting ++ e.arrivals := by
  cases e <;> simp [enter, waiting, receive, latch, release, Event.arrivals]

theorem enterReady (p : Pump σ) (e : Event) :
    (p.enter e).pump.ready = (p.ready || decide (e = .sinkReady)) := by
  cases e <;> simp [enter, receive, latch, release]

theorem enterLoad {p : Pump σ} {e : Event} (expected : p.Expects e) :
    (p.enter e).pump.slot.load + e.completions = p.slot.load := by
  cases e with
  | arrived segment => rfl
  | sinkReady => rfl
  | completed => rw [expected rfl]; rfl

theorem enterLatched {p : Pump σ} (latched : p.Latched) (e : Event) : (p.enter e).pump.Latched := by
  cases e with
  | arrived segment => exact latched
  | sinkReady => exact fun _ => rfl
  | completed => exact fun busy => nomatch busy

theorem pushDepth (p : Pump σ) (segment : Segment) :
    (p.backlog.push segment).size = p.waiting.length + 1 := by
  rw [Backlog.sizeToList, Backlog.toListPush, List.length_append]
  rfl

theorem enterCounters (p : Pump σ) (e : Event) :
    (p.enter e).pump.counters =
      { p.counters with
        segmentsReceived := p.counters.segmentsReceived + e.arrivals.length
        bytesReceived := p.counters.bytesReceived + totalSize e.arrivals
        completions := p.counters.completions + e.completions
        peakDepth := if e.arrivals = [] then p.counters.peakDepth
          else max p.counters.peakDepth (p.waiting.length + 1) } := by
  cases e with
  | arrived segment => simp [enter, receive, Event.arrivals, Event.completions, pushDepth]
  | sinkReady => rfl
  | completed => rfl

theorem enterExact {p : Pump σ} (exact : p.backlog.Exact) (e : Event) :
    (p.enter e).pump.backlog.Exact := by
  cases e with
  | arrived segment => exact Backlog.exactPush exact segment
  | sinkReady => exact exact
  | completed => exact exact

@[simp] theorem concludeSink (p : Pump σ) (segment : Segment) (reply : Reply) :
    (p.conclude segment reply).pump.sink = p.sink := by
  cases reply <;> rfl

@[simp] theorem concludeBacklog (p : Pump σ) (segment : Segment) (reply : Reply) :
    (p.conclude segment reply).pump.backlog = p.backlog := by
  cases reply <;> rfl

@[simp] theorem concludeWaiting (p : Pump σ) (segment : Segment) (reply : Reply) :
    (p.conclude segment reply).pump.waiting = p.waiting := by
  cases reply <;> rfl

@[simp] theorem concludeReady (p : Pump σ) (segment : Segment) (reply : Reply) :
    (p.conclude segment reply).pump.ready = p.ready := by
  cases reply <;> rfl

theorem concludeOk {p : Pump σ} {segment : Segment} {reply : Reply}
    (ok : (p.conclude segment reply).result = .ok ()) :
    reply = .accepted ∧ (p.conclude segment reply).pump.slot = .inFlight := by
  cases reply with
  | accepted => exact ⟨rfl, rfl⟩
  | refused refusal => cases ok
  | crashed => cases ok

/- Handling `e` calls for the next append. Readiness looks at the slot alone, and a
completion not even at the latch. -/
def Calls (p : Pump σ) : Event → Prop
  | .arrived segment => (p.receive segment).pump.Clear
  | .sinkReady => p.latch.pump.slot = .idle
  | .completed => p.slot = .inFlight

theorem callsExpected {p : Pump σ} {e : Event} (calls : p.Calls e) : p.Expects e := by
  rintro rfl
  exact calls

theorem callsClear {p : Pump σ} (latched : p.Latched) {e : Event} (calls : p.Calls e) :
    (p.enter e).pump.Clear := by
  cases e with
  | arrived segment => exact calls
  | sinkReady => exact ⟨rfl, calls⟩
  | completed => exact ⟨latched calls, rfl⟩

variable [Sink σ]

inductive Advance (p : Pump σ) : Step σ → Prop where
  | rest (empty : p.waiting = []) : Advance p (.done p)
  | offer {segment rest reply sink} (head : p.waiting = segment :: rest)
      (answer : Sink.offer p.sink segment = (reply, sink)) :
      Advance p ((p.handOver segment rest sink).conclude segment reply)

inductive Reaction (p : Pump σ) (e : Event) : Step σ → Prop where
  | unexpected (event : e = .completed) (idle : p.slot = .idle) :
      Reaction p e ((Step.fail p (.pump .unexpectedCompletion)).after [.completionNeverIssued])
  | held (expected : p.Expects e) (blocked : ¬ (p.enter e).pump.Clear) : Reaction p e (p.enter e)
  | advanced {s} (expected : p.Expects e) (clear : (p.enter e).pump.Clear)
      (advance : Advance (p.enter e).pump s) : Reaction p e (s.after (p.enter e).notices)

theorem advances {p : Pump σ} (clear : p.Clear) : Advance p p.advance := by
  obtain ⟨ready, idle⟩ := clear
  cases contents : p.waiting with
  | nil =>
    have empty : p.backlog.isEmpty = true := by
      rw [Backlog.isEmptyToList, show p.backlog.toList = [] from contents, List.isEmpty_nil]
    have same : p.advance = .done p := by simp [advance, ready, idle, empty]
    rw [same]
    exact .rest contents
  | cons segment rest =>
    have more : p.backlog.isEmpty = false := by
      rw [Backlog.isEmptyToList, show p.backlog.toList = _ from contents, List.isEmpty_cons]
    have popped := Backlog.popCons contents
    obtain ⟨reply, sink, answer⟩ : ∃ reply sink, Sink.offer p.sink segment = (reply, sink) :=
      ⟨_, _, rfl⟩
    have same : p.advance = (p.handOver segment rest sink).conclude segment reply := by
      cases reply <;> simp [advance, ready, idle, more, popped, answer, conclude, handOver]
    rw [same]
    exact .offer contents answer

/- A completion calls for an append without a look at the latch, which is why
the pump has to be latched. -/
theorem applied {p : Pump σ} (latched : p.Latched) (e : Event) : Reaction p e (p.apply e) := by
  cases e with
  | arrived segment =>
    have expected : p.Expects (.arrived segment) := by simp [Expects]
    by_cases clear : (p.receive segment).pump.Clear
    · rw [apply, if_pos (clearIff.mpr clear)]
      exact .advanced expected clear (advances clear)
    · rw [apply, if_neg fun begins => clear (clearIff.mp begins)]
      exact .held expected clear
  | sinkReady =>
    have expected : p.Expects .sinkReady := by simp [Expects]
    by_cases idle : p.latch.pump.slot = .idle
    · have clear : (p.enter .sinkReady).pump.Clear := ⟨rfl, idle⟩
      rw [apply, if_pos idle]
      exact .advanced expected clear (advances clear)
    · rw [apply, if_neg idle]
      exact .held expected fun clear => idle clear.2
  | completed =>
    cases slot : p.slot with
    | idle =>
      rw [apply, slot]
      exact .unexpected rfl slot
    | inFlight =>
      have clear : (p.enter .completed).pump.Clear := ⟨latched slot, rfl⟩
      rw [apply, slot]
      exact .advanced (fun _ => slot) clear (advances clear)

theorem reactPump (p : Pump σ) (e : Event) : (p.react e).pump = (p.apply e).pump := rfl

theorem reactResult (p : Pump σ) (e : Event) : (p.react e).result = (p.apply e).result :=
  rfl

theorem reactCalled {p : Pump σ} {e : Event} (calls : p.Calls e) :
    (p.react e).pump = (p.enter e).pump.advance.pump ∧
      (p.react e).result = (p.enter e).pump.advance.result := by
  rw [reactPump, reactResult]
  cases e with
  | arrived segment =>
    rw [apply, if_pos (clearIff.mpr calls)]
    exact ⟨rfl, rfl⟩
  | sinkReady =>
    rw [apply, if_pos (show p.latch.pump.slot = .idle from calls)]
    exact ⟨rfl, rfl⟩
  | completed =>
    rw [apply, show p.slot = .inFlight from calls]
    exact ⟨rfl, rfl⟩

theorem reactUncalled {p : Pump σ} {e : Event} (silent : ¬ p.Calls e) :
    (p.react e).pump.sink = p.sink := by
  rw [reactPump]
  cases e with
  | arrived segment => rw [apply, if_neg fun begins => silent (clearIff.mp begins)]; rfl
  | sinkReady => rw [apply, if_neg (show ¬ p.latch.pump.slot = .idle from silent)]; rfl
  | completed =>
    cases slot : p.slot with
    | idle => rw [apply, slot]; rfl
    | inFlight => exact absurd slot silent

theorem reactLatched {p : Pump σ} (latched : p.Latched) (e : Event) :
    (p.react e).pump.Latched := by
  have way := applied latched e
  rw [reactPump]
  generalize p.apply e = s at way ⊢
  cases way with
  | unexpected => exact latched
  | held => exact enterLatched latched e
  | advanced expected clear advance =>
    cases advance with
    | rest => exact enterLatched latched e
    | offer => exact fun _ => by simpa using clear.1

theorem reactReady {p : Pump σ} (latched : p.Latched) (e : Event) :
    (p.react e).pump.ready = (p.ready || decide (e = .sinkReady)) := by
  have way := applied latched e
  rw [reactPump]
  generalize p.apply e = s at way ⊢
  cases way with
  | unexpected event => simp [event]
  | held => exact enterReady p e
  | advanced _ _ advance =>
    cases advance with
    | rest => exact enterReady p e
    | offer => rw [Step.afterPump, concludeReady, readyHandOver, enterReady]

theorem reactProper {p : Pump σ} (latched : p.Latched) (e : Event) :
    (p.react e).result ≠ .error .misuse := by
  have way := applied latched e
  rw [reactResult]
  generalize p.apply e = s at way ⊢
  cases way with
  | unexpected => simp
  | held => simp
  | advanced _ _ advance =>
    cases advance with
    | rest => simp
    | @offer _ _ reply => cases reply <;> simp [conclude, fill]

theorem reactConserves {p : Pump σ} (latched : p.Latched) {e : Event}
    (ok : (p.react e).result = .ok ()) (clear : (p.react e).pump.Clear) :
    (p.react e).pump.waiting = [] := by
  have way := applied latched e
  rw [reactPump] at *
  rw [reactResult] at ok
  generalize p.apply e = s at *
  cases way with
  | unexpected => cases ok
  | held expected blocked => exact absurd clear blocked
  | advanced expected _ advance =>
    cases advance with
    | rest none => exact none
    | offer head answer =>
      have busy := (concludeOk ok).2
      have idle := clear.2
      rw [Step.afterPump, busy] at idle
      cases idle

end Pump
end SegmentPump
