import Mathlib.Data.List.Nodup
import SegmentPump.Proofs.Pump.Confluence

/-! The slot between a pump and its sink. The history of a slot is what the sink
accepted and which completions were taken, and nothing in it is read off the slot. It
is a word of the machine with the two states of the slot: appends and completions take
turns, an append first, and the slot tells which of them came last. Of the segments,
each is offered once: what is offered later was waiting behind it or came after it. -/
namespace SegmentPump

variable {σ : Type}

inductive Usage
  | append (segment : Segment)
  | completion
  deriving DecidableEq

namespace Usage

def segment? : Usage → Option Segment
  | .append segment => some segment
  | .completion => none

theorem appendSegments (segments : List Segment) :
    (segments.map append).filterMap segment? = segments := by
  induction segments with
  | nil => rfl
  | cons segment rest ih => simp [segment?, ih]

theorem appendCompletions (segments : List Segment) :
    (segments.map append).count completion = 0 := by
  simp [List.count_eq_zero]

theorem completionSegments (count : Nat) :
    (List.replicate count completion).filterMap segment? = [] :=
  List.filterMap_replicate_of_none rfl

end Usage

namespace Slot

def turn : Slot → Usage → Option Slot
  | .idle, .append _ => some .inFlight
  | .inFlight, .completion => some .idle
  | _, _ => none

def turns (s : Slot) (history : List Usage) : Option Slot := history.foldlM turn s

theorem turnsAppend (s : Slot) (earlier later : List Usage) :
    s.turns (earlier ++ later) = (s.turns earlier).bind (·.turns later) :=
  List.foldlM_append

theorem turnsOne (s : Slot) (use : Usage) : s.turns [use] = s.turn use := by
  cases turned : s.turn use <;> simp [turns, turned]

theorem turnParity {s t : Slot} {use : Usage} (turned : s.turn use = some t) :
    (use = .completion ↔ s.load = 1) ∧ t.load + s.load = 1 := by
  cases s <;> cases use <;> cases turned <;> simp [load]

theorem turnsParity {s t : Slot} {history : List Usage} (turned : s.turns history = some t)
    {i : Nat} {use : Usage} (found : history[i]? = some use) :
    use = .completion ↔ (i + s.load) % 2 = 1 := by
  induction history generalizing s i with
  | nil => cases found
  | cons first rest ih =>
    rw [← List.singleton_append, turnsAppend, turnsOne] at turned
    obtain ⟨middle, turn, turned⟩ := Option.bind_eq_some_iff.mp turned
    obtain ⟨completes, flips⟩ := turnParity turn
    cases i with
    | zero =>
      cases found
      rw [completes]
      omega
    | succ i =>
      rw [ih turned found]
      omega

theorem turnsLast {t : Slot} {history : List Usage} (turned : idle.turns history = some t) :
    t = .inFlight ↔ ∃ segment, history.getLast? = some (.append segment) := by
  rcases List.eq_nil_or_concat history with rfl | ⟨before, last, rfl⟩
  · cases turned
    simp
  · rw [List.concat_eq_append, turnsAppend] at turned
    obtain ⟨middle, -, turn⟩ := Option.bind_eq_some_iff.mp turned
    rw [turnsOne] at turn
    cases middle <;> cases last <;> cases turn <;> simp

end Slot

namespace Pump

variable [Sink σ]

/- A completion comes before the append for which it makes room. -/
def uses (p : Pump (Observed σ)) (e : Event) : List Usage :=
  List.replicate (e.taken (p.react e).result) .completion ++
    ((p.react e).pump.sink.appended.drop p.sink.appended.length).map .append

def history (p : Pump (Observed σ)) : List Event → List Usage
  | [] => []
  | e :: rest => p.uses e ++ (p.react e).pump.history rest

variable {p : Pump (Observed σ)}

theorem reactAppended (latched : p.Latched) (e : Event) :
    p.sink.appended <+: (p.react e).pump.sink.appended := by
  obtain ⟨more, -, record⟩ := reactOffers latched e
  rw [Observed.appended, Observed.appended, record, List.filter_append, List.map_append]
  exact List.prefix_append _ _

theorem historyAppended (latched : p.Latched) (events : List Event) :
    p.sink.appended ++ (p.history events).filterMap Usage.segment? =
      (p.after events).sink.appended := by
  induction events generalizing p with
  | nil => exact List.append_nil _
  | cons e rest ih =>
    have first : p.sink.appended ++ (p.uses e).filterMap Usage.segment? =
        (p.react e).pump.sink.appended := by
      rw [uses, List.filterMap_append, Usage.completionSegments, Usage.appendSegments,
        List.nil_append]
      exact List.prefix_iff_eq_append.mp (reactAppended latched e)
    rw [history, List.filterMap_append, ← List.append_assoc, first, afterCons]
    exact ih (reactLatched latched e)

theorem historyCompleted (p : Pump (Observed σ)) (events : List Event) :
    (p.history events).count .completion = p.completed events := by
  induction events generalizing p with
  | nil => rfl
  | cons e rest ih =>
    have first : (p.uses e).count .completion = e.taken (p.react e).result := by
      rw [uses, List.count_append, List.count_replicate_self, Usage.appendCompletions, Nat.add_zero]
    rw [history, List.count_append, first, ih, completed]

omit [Sink σ] in
theorem enterTurns {p : Pump σ} {e : Event} (expected : p.Expects e) :
    p.slot.turns (List.replicate e.completions .completion) = some (p.enter e).pump.slot := by
  cases e with
  | arrived segment => rfl
  | sinkReady => rfl
  | completed => rw [expected rfl]; rfl

theorem reactTurns (latched : p.Latched) (e : Event) :
    p.slot.turns (p.uses e) = some (p.react e).pump.slot := by
  have way := applied latched e
  rw [uses, reactPump, reactResult]
  generalize p.apply e = s at way ⊢
  cases way with
  | unexpected event idle =>
    subst event
    simp [Event.taken, Slot.turns]
  | held expected =>
    rw [enterResult, enterSink, List.drop_length, List.map_nil, List.append_nil]
    exact enterTurns expected
  | advanced expected clear advance =>
    cases advance with
    | rest =>
      rw [Step.afterPump, Step.donePump, enterSink, List.drop_length, List.map_nil, List.append_nil]
      exact enterTurns expected
    | @offer segment _ reply _ head answer =>
      rw [Step.afterPump, Step.afterResult, takenConclude, concludeSink, sinkHandOver,
        Observed.appendedSnoc answer, enterSink, List.drop_left, Slot.turnsAppend,
        enterTurns expected, Option.bind_some, clear.2]
      cases reply with
      | accepted => rfl
      | refused refusal => exact congrArg some clear.2.symm
      | crashed => exact congrArg some clear.2.symm

theorem historyTurns (latched : p.Latched) (events : List Event) :
    p.slot.turns (p.history events) = some (p.after events).slot := by
  induction events generalizing p with
  | nil => rfl
  | cons e rest ih =>
    rw [history, Slot.turnsAppend, reactTurns latched, Option.bind_some, afterCons]
    exact ih (reactLatched latched e)

theorem offeredLater (sink : σ) (warnDepth : Nat) (events later : List Event) :
    let p := (observed sink warnDepth).after events
    ∃ more, (p.after later).sink.offers.toList = p.sink.offers.toList ++ more ∧
      more.map Offer.segment ++ (p.after later).waiting = p.waiting ++ arrivals later := by
  intro p
  have before := (ledgerAfter sink warnDepth events).conserved
  have after := (ledgerAfter sink warnDepth (events ++ later)).conserved
  obtain ⟨more, record⟩ := afterOffers (ledgerAfter sink warnDepth events).latched later
  refine ⟨more, record, ?_⟩
  have offered : (p.after later).sink.offered = p.sink.offered ++ more.map Offer.segment := by
    rw [Observed.offered, record, List.map_append, Observed.offered]
  rw [afterAppend, arrivalsAppend, ← before, offered, List.append_assoc, List.append_assoc] at after
  exact List.append_cancel_left after

/- The segments that arrive are told apart by their places in line. Where they differ
from one another, so that a segment can be recognised, it is not seen twice. -/
theorem slotTakesTurns (sink : σ) (warnDepth : Nat) (events : List Event) :
    let p := (observed sink warnDepth).after events
    let history := (observed sink warnDepth).history events
    (∀ e, ∃ more, more.length ≤ 1 ∧
        (p.react e).pump.sink.offers.toList = p.sink.offers.toList ++ more) ∧
      (∀ later, ∃ more,
        (p.after later).sink.offers.toList = p.sink.offers.toList ++ more ∧
        more.map Offer.segment ++ (p.after later).waiting = p.waiting ++ arrivals later ∧
        ((arrivals (events ++ later)).Nodup →
          ∀ offer ∈ p.sink.offers.toList, offer.segment ∉ more.map Offer.segment)) ∧
      history.filterMap Usage.segment? = p.sink.appended ∧
      history.count .completion = (observed sink warnDepth).completed events ∧
      (∀ i use, history[i]? = some use → (use = .completion ↔ i % 2 = 1)) ∧
      (p.slot = .inFlight ↔ ∃ segment, history.getLast? = some (.append segment)) ∧
      ((p.react .completed).result = .error (.pump .unexpectedCompletion) ↔
        ¬ ∃ segment, history.getLast? = some (.append segment)) := by
  intro p history
  have fresh : (observed sink warnDepth).Latched := newLatched _ warnDepth
  have books := ledgerAfter sink warnDepth events
  have turned : Slot.idle.turns history = some p.slot := historyTurns fresh events
  have last := Slot.turnsLast turned
  have appended : history.filterMap Usage.segment? = p.sink.appended := by
    have whole := historyAppended fresh events
    rwa [show (observed sink warnDepth).sink.appended = [] from rfl, List.nil_append] at whole
  refine ⟨reactOffers books.latched, fun later => ?_, appended, historyCompleted _ events,
    fun i use => Slot.turnsParity turned, last, ?_⟩
  · obtain ⟨more, record, order⟩ := offeredLater sink warnDepth events later
    refine ⟨more, record, order, fun distinct offer member again => ?_⟩
    rw [arrivalsAppend, ← books.conserved, List.append_assoc, ← order] at distinct
    have apart := List.disjoint_of_nodup_append distinct
    exact apart (List.mem_map_of_mem member) (List.mem_append_left _ again)
  · rw [unexpectedIff books.latched, ← last]
    cases p.slot <;> simp

/- The first segment is refused, and the completion after it ends nothing. The arrival
of the third makes way for the second. -/
theorem slotTakesTurnsRefused :
    let first : Segment := ⟨⟨#[1]⟩⟩
    let events : List Event := [.arrived first, .arrived ⟨⟨#[2]⟩⟩, .sinkReady]
    let later : List Event := [.completed, .arrived ⟨⟨#[3]⟩⟩, .completed]
    let p := (observed ({ cues := [.refuse .closed] } : Script) 4).after events
    (arrivals (events ++ later)).Nodup ∧ ⟨first, .refused .closed⟩ ∈ p.sink.offers.toList ∧
      (∃ more, (p.after later).sink.offers.toList = p.sink.offers.toList ++ more ∧
        more.map Offer.segment = [⟨⟨#[2]⟩⟩, ⟨⟨#[3]⟩⟩] ∧ first ∉ more.map Offer.segment) ∧
      (p.react .completed).result = .error (.pump .unexpectedCompletion) := by
  intro first events later p
  have distinct : (arrivals (events ++ later)).Nodup := by decide
  have refused : ⟨first, .refused .closed⟩ ∈ p.sink.offers.toList := by decide
  have empty : (p.after later).waiting = [] := by decide
  have line : p.waiting ++ arrivals later = [⟨⟨#[2]⟩⟩, ⟨⟨#[3]⟩⟩] := by decide
  have unused : (observed ({ cues := [.refuse .closed] } : Script) 4).history events = [] := by decide
  obtain ⟨_, offers, _, _, _, _, unexpected⟩ :=
    slotTakesTurns ({ cues := [.refuse .closed] } : Script) 4 events
  obtain ⟨more, record, order, once⟩ := offers later
  -- Two names of one pump are compared by running it.
  subst p
  rw [empty, List.append_nil] at order
  have spared : first ∉ more.map Offer.segment := once distinct ⟨first, .refused .closed⟩ refused
  refine ⟨distinct, refused, ⟨more, record, ?_, spared⟩, ?_⟩
  · exact order.trans line
  · exact unexpected.mpr fun ⟨_, last⟩ => by simp [unused] at last

end Pump
end SegmentPump
