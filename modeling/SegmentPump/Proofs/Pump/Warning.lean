import SegmentPump.Proofs.Pump.Alternation
import SegmentPump.Proofs.Pump.Counters
import SegmentPump.Proofs.Pump.Failure
import SegmentPump.Proofs.Pump.Readiness

/-! The warning about a long backlog. It is spent when the backlog reaches the warning
depth and armed again by an append that leaves less than half of it, so that between
two warnings more than half of the depth is worked off and builds up again. The pump
itself takes no notice of any of this: with another depth it does the same and only
says something else. -/
namespace SegmentPump

variable {σ : Type}

namespace Pump

def Poised (p : Pump σ) : Prop := p.armed = true → p.waiting.length < p.warnDepth

def Spent (p : Pump σ) : Prop := p.armed = false → p.warnDepth ≤ 2 * p.waiting.length

def rewarned (p : Pump σ) (depth : Nat) (armed : Bool) : Pump σ :=
  { p with warnDepth := depth, armed }

end Pump

/- Two steps that differ at the most in what they say about the length of the backlog. -/
structure Step.Rewarned (s t : Step σ) : Prop where
  pump : ∃ depth armed, t.pump = s.pump.rewarned depth armed
  result : t.result = s.result
  notices : t.notices.filter (!·.warns) = s.notices.filter (!·.warns)

theorem Step.rewarnedAfter {s t : Step σ} (same : s.Rewarned t) {earlier earlier' : List Notice}
    (before : earlier'.filter (!·.warns) = earlier.filter (!·.warns)) :
    (s.after earlier).Rewarned (t.after earlier') where
  pump := same.pump
  result := same.result
  notices := by simp only [Step.after, List.filter_append, before, same.notices]

namespace Pump

variable {p : Pump σ} {e : Event}

theorem enterPoised (poised : p.Poised) (e : Event) : (p.enter e).pump.Poised := by
  intro armed
  rw [enterArmed, Bool.and_eq_true, Bool.not_eq_true', decide_eq_false_iff_not] at armed
  have below := poised armed.1
  rw [enterWarnDepth, enterWaiting, List.length_append]
  cases e with
  | arrived segment =>
    have shallow : ¬ p.warnDepth ≤ p.waiting.length + 1 := fun deep => armed.2 ⟨nofun, deep⟩
    simp only [Event.arrivals, List.length_singleton]
    omega
  | sinkReady => exact below
  | completed => exact below

theorem enterSpent (spent : p.Spent) (e : Event) : (p.enter e).pump.Spent := by
  intro unarmed
  rw [enterArmed] at unarmed
  rw [enterWarnDepth, enterWaiting, List.length_append]
  cases armed : p.armed with
  | false =>
    have deep := spent armed
    omega
  | true =>
    have deepens : p.Deepens e := by simpa [armed] using unarmed
    have one := List.length_pos_iff.mpr deepens.1
    have deep := deepens.2
    omega

theorem handOverDepth (p : Pump σ) (segment : Segment) (rest : List Segment) (sink : σ) :
    (p.handOver segment rest sink).backlog.size = rest.length := by
  rw [Backlog.sizeToList]
  exact congrArg List.length (waitingHandOver p segment rest sink)

theorem concludeWarnDepth (p : Pump σ) (segment : Segment) (rest : List Segment) (reply : Reply)
    (sink : σ) :
    ((p.handOver segment rest sink).conclude segment reply).pump.warnDepth = p.warnDepth := by
  cases reply <;> rfl

theorem concludeArmed (p : Pump σ) (segment : Segment) (rest : List Segment) (reply : Reply)
    (sink : σ) :
    ((p.handOver segment rest sink).conclude segment reply).pump.armed =
      (p.armed || decide (reply = .accepted ∧ 2 * rest.length < p.warnDepth)) := by
  cases reply with
  | accepted =>
    simp only [conclude, fill, handOverDepth, Nat.mul_comm, true_and]
    rfl
  | refused refusal => simp [conclude, Step.fail, handOver]
  | crashed => simp [conclude, Step.fail, handOver]

theorem concludePoised (poised : p.Poised) {segment : Segment} {rest : List Segment}
    (head : p.waiting = segment :: rest) (reply : Reply) (sink : σ) :
    ((p.handOver segment rest sink).conclude segment reply).pump.Poised := by
  intro armed
  rw [concludeArmed, Bool.or_eq_true, decide_eq_true_iff] at armed
  rw [concludeWaiting, waitingHandOver, concludeWarnDepth]
  rcases armed with before | ⟨-, half⟩
  · have below := poised before
    rw [head, List.length_cons] at below
    omega
  · omega

theorem concludeSpent (p : Pump σ) (segment : Segment) (rest : List Segment) (sink : σ) :
    ((p.handOver segment rest sink).conclude segment .accepted).pump.Spent := by
  intro unarmed
  rw [concludeArmed, Bool.or_eq_false_iff, decide_eq_false_iff_not] at unarmed
  rw [concludeWaiting, waitingHandOver, concludeWarnDepth]
  have half : ¬ 2 * rest.length < p.warnDepth := fun less => unarmed.2 ⟨rfl, less⟩
  omega

variable [Sink σ]

def Warns (p : Pump σ) (e : Event) : Prop := ∃ n ∈ (p.react e).notices, n.warns = true

instance (p : Pump σ) (e : Event) : Decidable (p.Warns e) :=
  inferInstanceAs (Decidable (∃ n ∈ (p.react e).notices, n.warns = true))

def log (p : Pump σ) : List Event → List Notice
  | [] => []
  | e :: rest => (p.react e).notices ++ (p.react e).pump.log rest

theorem reactWarnDepth (latched : p.Latched) (e : Event) :
    (p.react e).pump.warnDepth = p.warnDepth := by
  have way := applied latched e
  rw [reactPump]
  generalize p.apply e = s at way ⊢
  cases way with
  | unexpected => rfl
  | held => exact enterWarnDepth p e
  | advanced _ _ advance =>
    cases advance with
    | rest => exact enterWarnDepth p e
    | offer => exact (concludeWarnDepth ..).trans (enterWarnDepth p e)

theorem reactWarnings (latched : p.Latched) (e : Event) :
    (p.react e).notices.filter Notice.warns =
      if p.armed = true ∧ p.Deepens e then
        [.backingUp (p.waiting.length + 1) (p.backlog.bytes + totalSize e.arrivals) p.ready]
      else [] := by
  have way := applied latched e
  have entered := enterWarns p e
  rw [react]
  generalize p.apply e = s at way ⊢
  cases way with
  | unexpected event =>
    subst event
    simp [Step.after, Step.fail, Notice.warns, Deepens, Event.arrivals]
  | held => simpa [Step.after, Notice.warns] using entered
  | advanced _ _ advance =>
    cases advance with
    | rest => simpa [Step.after, Step.done, Notice.warns] using entered
    | @offer _ _ reply =>
      cases reply <;> simpa [Step.after, conclude, fill, Step.fail, Notice.warns] using entered

theorem warnsIff (latched : p.Latched) : p.Warns e ↔ p.armed = true ∧ p.Deepens e := by
  have warnings := reactWarnings latched e
  by_cases due : p.armed = true ∧ p.Deepens e
  · rw [if_pos due] at warnings
    have member := List.mem_filter.mp (warnings ▸ List.mem_singleton_self _)
    exact ⟨fun _ => due, fun _ => ⟨_, member⟩⟩
  · rw [if_neg due, List.filter_eq_nil_iff] at warnings
    exact ⟨fun ⟨n, member, warns⟩ => absurd warns (warnings n member), fun both => absurd both due⟩

theorem warnedAt (latched : p.Latched) (poised : p.Poised) (warns : p.Warns e) :
    p.waiting.length + 1 = p.warnDepth ∧ ∃ segment, e = .arrived segment := by
  obtain ⟨armed, arrives, deep⟩ := (warnsIff latched).mp warns
  have below := poised armed
  refine ⟨by omega, ?_⟩
  cases e with
  | arrived segment => exact ⟨segment, rfl⟩
  | sinkReady => exact absurd rfl arrives
  | completed => exact absurd rfl arrives

theorem warnedDepth (latched : p.Latched) (poised : p.Poised) {depth bytes : Nat} {ready : Bool}
    (warning : .backingUp depth bytes ready ∈ (p.react e).notices) : depth = p.warnDepth := by
  have warns : p.Warns e := ⟨_, warning, rfl⟩
  have listed := List.mem_filter.mpr ⟨warning, show Notice.warns (.backingUp ..) = true from rfl⟩
  rw [reactWarnings latched, if_pos ((warnsIff latched).mp warns), List.mem_singleton] at listed
  cases listed
  exact (warnedAt latched poised warns).1

theorem reactPoised (latched : p.Latched) (poised : p.Poised) (e : Event) :
    (p.react e).pump.Poised := by
  have entered := enterPoised poised e
  have way := applied latched e
  rw [reactPump]
  generalize p.apply e = s at way ⊢
  cases way with
  | unexpected => exact poised
  | held => exact entered
  | advanced _ _ advance =>
    cases advance with
    | rest => exact entered
    | offer head => exact concludePoised entered head _ _

theorem reactSpent (latched : p.Latched) (spent : p.Spent)
    (ok : (p.react e).result = .ok ()) : (p.react e).pump.Spent := by
  have entered := enterSpent spent e
  have way := applied latched e
  rw [reactResult] at ok
  rw [reactPump]
  generalize p.apply e = s at way ok ⊢
  cases way with
  | unexpected => cases ok
  | held => exact entered
  | advanced _ _ advance =>
    cases advance with
    | rest => exact entered
    | offer =>
      obtain ⟨rfl, -⟩ := concludeOk ok
      exact concludeSpent _ _ _ _

theorem reactArms (latched : p.Latched) (armed : (p.react e).pump.armed = true) :
    (p.armed = true ∧ ¬ p.Deepens e) ∨ 2 * (p.react e).pump.waiting.length < p.warnDepth := by
  have entered (still : (p.enter e).pump.armed = true) : p.armed = true ∧ ¬ p.Deepens e := by
    simpa [enterArmed] using still
  have way := applied latched e
  rw [reactPump] at armed ⊢
  generalize p.apply e = s at way armed ⊢
  cases way with
  | unexpected event => exact .inl ⟨armed, fun deepens => deepens.1 (event ▸ rfl)⟩
  | held => exact .inl (entered armed)
  | advanced _ _ advance =>
    cases advance with
    | rest => exact .inl (entered armed)
    | offer =>
      rw [Step.afterPump, concludeArmed, Bool.or_eq_true, decide_eq_true_iff,
        enterWarnDepth] at armed
      rw [Step.afterPump, concludeWaiting, waitingHandOver]
      exact armed.imp entered And.right

theorem afterWarnDepth (latched : p.Latched) (events : List Event) :
    (p.after events).warnDepth = p.warnDepth := by
  induction events generalizing p with
  | nil => rfl
  | cons e rest ih => exact (ih (reactLatched latched e)).trans (reactWarnDepth latched e)

theorem afterPoised (latched : p.Latched) (poised : p.Poised) (events : List Event) :
    (p.after events).Poised := by
  induction events generalizing p with
  | nil => exact poised
  | cons e rest ih => exact ih (reactLatched latched e) (reactPoised latched poised e)

theorem loggedDepth (latched : p.Latched) (poised : p.Poised) {events : List Event}
    {depth bytes : Nat} {ready : Bool} (warning : .backingUp depth bytes ready ∈ p.log events) :
    depth = p.warnDepth := by
  induction events generalizing p with
  | nil => cases warning
  | cons e rest ih =>
    rcases List.mem_append.mp warning with here | later
    · exact warnedDepth latched poised here
    · exact (ih (reactLatched latched e) (reactPoised latched poised e) later).trans
        (reactWarnDepth latched e)

section

variable {start : σ} {p : Pump (Observed σ)} {arrived : List Segment} {ready : Bool} {done : Nat}

theorem afterSpent (latched : p.Latched) (spent : p.Spent) {events : List Event}
    (unrefused : (p.after events).sink.Unrefused) : (p.after events).Spent := by
  induction events generalizing p with
  | nil => exact spent
  | cons e rest ih =>
    have latched' := reactLatched latched e
    have still : (p.react e).pump.Spent := by
      rcases reactUnrefused latched (unrefusedBefore latched' unrefused) with ok | same
      · exact reactSpent latched spent ok
      · rw [same]
        exact spent
    exact ih latched' still unrefused

theorem ledgerLater (books : Ledger start p arrived ready done) (later : List Event) :
    ∃ ready' done', Ledger start (p.after later) (arrived ++ arrivals later) ready' done' := by
  induction later generalizing p arrived ready done with
  | nil => exact ⟨ready, done, by rw [arrivalsNil, List.append_nil]; exact books⟩
  | cons e rest ih =>
    rw [← List.singleton_append, arrivalsAppend, arrivalsOne, ← List.append_assoc]
    exact ih (ledgerReact books e)

theorem appendedLater (books : Ledger start p arrived ready done) {later : List Event}
    (unrefused : (p.after later).sink.Unrefused) :
    (p.after later).sink.appended.length + (p.after later).waiting.length =
      p.sink.appended.length + p.waiting.length + (arrivals later).length := by
  obtain ⟨_, _, books'⟩ := ledgerLater books later
  have before := congrArg List.length books.conserved
  have after := congrArg List.length books'.conserved
  have unrefused' : p.sink.Unrefused := unrefusedBefore books.latched unrefused
  rw [Observed.appendedAccepted unrefused, Observed.appendedAccepted unrefused']
  rw [List.length_append] at before after
  rw [List.length_append] at after
  omega

theorem halvedLater (books : Ledger start p arrived ready done)
    (full : p.waiting.length + 1 = p.warnDepth) {segment : Segment} {middle : List Event}
    (unrefused : (p.after (.arrived segment :: middle)).sink.Unrefused)
    (half : 2 * (p.after (.arrived segment :: middle)).waiting.length < p.warnDepth) :
    p.sink.appended.length + (p.warnDepth / 2 + 1) ≤
      (p.after (.arrived segment :: middle)).sink.appended.length := by
  have balance := appendedLater books unrefused
  have first : arrivals (.arrived segment :: middle) = segment :: arrivals middle := rfl
  rw [first, List.length_cons] at balance
  omega

theorem rearmed (books : Ledger start p arrived ready done) (poised : p.Poised) {e : Event}
    (warns : p.Warns e) {middle : List Event}
    (unrefused : (p.after (e :: middle)).sink.Unrefused)
    (armed : (p.after (e :: middle)).armed = true) :
    p.sink.appended.length + (p.warnDepth / 2 + 1) ≤ (p.after (e :: middle)).sink.appended.length := by
  obtain ⟨full, segment, rfl⟩ := warnedAt books.latched poised warns
  induction middle using List.reverseRecOn with
  | nil =>
    rcases reactArms books.latched armed with ⟨-, shallow⟩ | half
    · exact absurd ((warnsIff books.latched).mp warns).2 shallow
    · exact halvedLater books full unrefused half
  | append_singleton middle f ih =>
    have latched := afterLatched books.latched (.arrived segment :: middle)
    have depth := afterWarnDepth books.latched (.arrived segment :: middle)
    have last := afterSnoc p (.arrived segment :: middle) f
    rw [List.cons_append] at last
    rw [last] at armed
    rcases reactArms latched armed with ⟨still, -⟩ | half
    · have more := (reactAppended latched f).length_le
      have unrefused' : ((p.after (.arrived segment :: middle)).after [f]).sink.Unrefused := by
        rw [← afterAppend]
        exact unrefused
      have earlier := ih (unrefusedBefore latched unrefused') still
      rw [last]
      omega
    · rw [← last, depth] at half
      exact halvedLater books full unrefused half

/- The arrival that warns again finds as much waiting as the first one did, so that the
arrivals and the appends since then are the same number. -/
theorem warnedAgain (books : Ledger start p arrived ready done) (poised : p.Poised) {e next : Event}
    {middle : List Event} (warns : p.Warns e) (again : (p.after (e :: middle)).Warns next)
    (unrefused : (p.after (e :: middle)).sink.Unrefused) :
    p.sink.appended.length + (p.warnDepth / 2 + 1) ≤
        (p.after (e :: middle)).sink.appended.length ∧
      p.warnDepth / 2 + 1 ≤ (arrivals (middle ++ [next])).length := by
  have latched := afterLatched books.latched (e :: middle)
  have depth := afterWarnDepth books.latched (e :: middle)
  have armed := ((warnsIff latched).mp again).1
  have appends := rearmed books poised warns unrefused armed
  have balance := appendedLater books unrefused
  obtain ⟨full, segment, rfl⟩ := warnedAt books.latched poised warns
  obtain ⟨full', segment', rfl⟩ := warnedAt latched (afterPoised books.latched poised _) again
  have first : arrivals (.arrived segment :: middle) = segment :: arrivals middle := rfl
  have last : arrivals (middle ++ [.arrived segment']) = arrivals middle ++ [segment'] := by
    rw [arrivalsAppend, arrivalsOne, Event.arrivals]
  rw [first, List.length_cons] at balance
  rw [last, List.length_append, List.length_singleton]
  exact ⟨appends, by omega⟩

end

omit [Sink σ] in
theorem concludeRewarned (p : Pump σ) (depth : Nat) (armed : Bool) (segment : Segment)
    (rest : List Segment) (sink : σ) (reply : Reply) :
    ((p.handOver segment rest sink).conclude segment reply).Rewarned
      (((p.rewarned depth armed).handOver segment rest sink).conclude segment reply) := by
  cases reply <;> exact ⟨⟨depth, _, rfl⟩, rfl, rfl⟩

theorem advanceRewarned (p : Pump σ) (depth : Nat) (armed : Bool) :
    p.advance.Rewarned (p.rewarned depth armed).advance := by
  by_cases clear : p.Clear
  · have way := advances clear
    have way' := advances (p := p.rewarned depth armed) clear
    generalize p.advance = s at way ⊢
    generalize (p.rewarned depth armed).advance = t at way' ⊢
    cases way with
    | rest none =>
      cases way' with
      | rest => exact ⟨⟨depth, armed, rfl⟩, rfl, rfl⟩
      | offer head => cases none.symm.trans head
    | offer head answer =>
      cases way' with
      | rest none => cases head.symm.trans none
      | offer head' answer' =>
        cases head.symm.trans head'
        cases answer.symm.trans answer'
        exact concludeRewarned ..
  · have misused {q : Pump σ} (blocked : ¬ q.Clear) : q.advance = .fail q .misuse := by
      rw [advance, if_neg fun begins => blocked (clearIff.mp begins)]
    rw [misused clear, misused (q := p.rewarned depth armed) clear]
    exact ⟨⟨depth, armed, rfl⟩, rfl, rfl⟩

omit [Sink σ] in
theorem receiveRewarned (p : Pump σ) (depth : Nat) (armed : Bool) (segment : Segment) :
    (p.receive segment).Rewarned ((p.rewarned depth armed).receive segment) where
  pump := ⟨depth, _, rfl⟩
  result := rfl
  notices := by
    have quiet (q : Pump σ) : (q.receive segment).notices.filter (!·.warns) = [] := by
      simp only [receive]
      split <;> rfl
    rw [quiet, quiet]

theorem applyRewarned (p : Pump σ) (depth : Nat) (armed : Bool) (e : Event) :
    (p.apply e).Rewarned ((p.rewarned depth armed).apply e) := by
  cases e with
  | arrived segment =>
    have same := receiveRewarned p depth armed segment
    obtain ⟨depth', armed', pump⟩ := same.pump
    simp only [apply, pump]
    by_cases clear : ((p.receive segment).pump.ready && (p.receive segment).pump.slot == .idle) = true
    · rw [if_pos clear, if_pos (by exact clear)]
      exact Step.rewarnedAfter (advanceRewarned _ depth' armed') same.notices
    · rw [if_neg clear, if_neg (by exact clear)]
      exact same
  | sinkReady =>
    simp only [apply]
    by_cases idle : p.latch.pump.slot = .idle
    · rw [if_pos idle, if_pos (by exact idle)]
      exact Step.rewarnedAfter (advanceRewarned _ depth armed) rfl
    · rw [if_neg idle, if_neg (by exact idle)]
      exact ⟨⟨depth, armed, rfl⟩, rfl, rfl⟩
  | completed =>
    have slots : (p.rewarned depth armed).slot = p.slot := rfl
    simp only [apply, slots]
    cases p.slot with
    | idle => exact ⟨⟨depth, armed, rfl⟩, rfl, rfl⟩
    | inFlight => exact advanceRewarned p.release depth armed

theorem reactRewarned (p : Pump σ) (depth : Nat) (armed : Bool) (e : Event) :
    (p.react e).Rewarned ((p.rewarned depth armed).react e) :=
  Step.rewarnedAfter (applyRewarned p depth armed e) rfl

theorem afterRewarned (p : Pump σ) (depth : Nat) (armed : Bool) (events : List Event) :
    (∃ depth' armed', (p.rewarned depth armed).after events =
        (p.after events).rewarned depth' armed') ∧
      (p.rewarned depth armed).outcomes events = p.outcomes events ∧
      ((p.rewarned depth armed).log events).filter (!·.warns) =
        (p.log events).filter (!·.warns) := by
  induction events generalizing p depth armed with
  | nil => exact ⟨⟨depth, armed, rfl⟩, rfl, rfl⟩
  | cons e rest ih =>
    obtain ⟨⟨depth', armed', pump⟩, result, notices⟩ := reactRewarned p depth armed e
    obtain ⟨later, outcomes, logged⟩ := ih (p.react e).pump depth' armed'
    refine ⟨by rw [afterCons, afterCons, pump]; exact later, ?_, ?_⟩
    · rw [Pump.outcomes, Pump.outcomes, result, pump, outcomes]
    · rw [log, log, List.filter_append, List.filter_append, notices, pump, logged]

/- The warning comes before the append that the same arrival calls for, so that the
appends between two warnings are counted from before the event of the first one. -/
theorem warnsOncePerBacklog (sink : σ) (warnDepth : Nat) (events : List Event) :
    let start := observed sink warnDepth
    let limit := max warnDepth 1
    let p := start.after events
    (p.armed = true → p.stats.queueDepth < limit) ∧
      (p.sink.Unrefused → p.armed = false → limit ≤ 2 * p.stats.queueDepth) ∧
      (∀ depth bytes ready, .backingUp depth bytes ready ∈ start.log events → depth = limit) ∧
      (∀ e middle next, p.Warns e → (p.after (e :: middle)).Warns next →
        (p.after (e :: middle)).sink.Unrefused →
        p.sink.appended.length + (limit / 2 + 1) ≤
            (p.after (e :: middle)).sink.appended.length ∧
          limit / 2 + 1 ≤ (arrivals (middle ++ [next])).length) ∧
      (2 * events.length < UInt64.size → 2 * p.stats.queueDepth < UInt64.size) ∧
      ∀ warnDepth',
        let other := observed sink warnDepth'
        other.outcomes events = start.outcomes events ∧
          (other.after events).sink = p.sink ∧ (other.after events).stats = p.stats ∧
          (other.log events).filter (!·.warns) = (start.log events).filter (!·.warns) := by
  intro start limit p
  have books := ledgerAfter sink warnDepth events
  have latched : start.Latched := newLatched _ warnDepth
  have poised : start.Poised := fun _ => Nat.lt_of_lt_of_le Nat.zero_lt_one (Nat.le_max_right _ _)
  have poised' : p.Poised := afterPoised latched poised events
  have depth : p.warnDepth = limit := afterWarnDepth latched events
  have waiting : p.stats.queueDepth = p.waiting.length := Backlog.sizeToList p.backlog
  rw [waiting]
  refine ⟨fun armed => depth ▸ poised' armed, fun unrefused unarmed => ?_, ?_, ?_, fun few => ?_, ?_⟩
  · have spent : p.Spent := afterSpent latched nofun unrefused
    exact depth ▸ spent unarmed
  · exact fun _ _ _ => loggedDepth latched poised
  · intro e middle next warns again unrefused
    exact depth ▸ warnedAgain books poised' warns again unrefused
  · have arrived : (p.sink.offered ++ p.waiting).length = (arrivals events).length :=
      congrArg List.length books.conserved
    have fewer := arrivalsLength events
    rw [List.length_append] at arrived
    omega
  · intro warnDepth' other
    obtain ⟨⟨depth', armed', same⟩, outcomes, logged⟩ :=
      afterRewarned start (max warnDepth' 1) true events
    have same' : other.after events = p.rewarned depth' armed' := same
    exact ⟨outcomes, by rw [same']; rfl, by rw [same']; rfl, logged⟩

theorem warnsOncePerBacklogOdd :
    let third : Event := .arrived ⟨⟨#[3]⟩⟩
    let middle : List Event := [.sinkReady, .completed, .arrived ⟨⟨#[4]⟩⟩]
    let next : Event := .arrived ⟨⟨#[5]⟩⟩
    let events : List Event := [.arrived ⟨⟨#[1]⟩⟩, .arrived ⟨⟨#[2]⟩⟩]
    let start := observed ({} : Script) 3
    let p := start.after events
    (p.armed = true ∧ p.stats.queueDepth < 3) ∧
      (p.Warns third ∧ (p.after (third :: middle)).Warns next ∧
        (p.after (third :: middle)).sink.Unrefused ∧
        p.sink.appended.length + 2 ≤ (p.after (third :: middle)).sink.appended.length ∧
        2 ≤ (arrivals (middle ++ [next])).length) ∧
      (.backingUp 3 3 false ∈ start.log (events ++ [third]) ∧
        ∀ depth bytes ready,
          .backingUp depth bytes ready ∈ start.log (events ++ [third]) → depth = 3) ∧
      (start.after (events ++ [third])).armed = false ∧
      3 ≤ 2 * (start.after (events ++ [third])).stats.queueDepth ∧
      2 * (start.after (events ++ [third])).stats.queueDepth < UInt64.size := by
  intro third middle next events start p
  have armed : p.armed = true := by decide
  have warns : p.Warns third := by decide
  have again : (p.after (third :: middle)).Warns next := by decide
  have unrefused : (p.after (third :: middle)).sink.Unrefused := by decide
  have unarmed : (start.after (events ++ [third])).armed = false := by decide
  have unrefused' : (start.after (events ++ [third])).sink.Unrefused := by decide
  have few : 2 * (events ++ [third]).length < UInt64.size := by decide
  have warned : .backingUp 3 3 false ∈ start.log (events ++ [third]) := by decide
  obtain ⟨below, _, _, spaced, _⟩ := warnsOncePerBacklog ({} : Script) 3 events
  obtain ⟨_, above, depths, _, word, _⟩ := warnsOncePerBacklog ({} : Script) 3 (events ++ [third])
  exact ⟨⟨armed, below armed⟩,
    ⟨warns, again, unrefused, spaced third middle next warns again unrefused⟩,
    ⟨warned, depths⟩, unarmed, above unrefused' unarmed, word few⟩

end Pump
end SegmentPump
