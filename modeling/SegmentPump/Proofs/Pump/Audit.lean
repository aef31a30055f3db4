import SegmentPump.Proofs.Pump.Warning

/-! The log of a pump as an account of what the pump did. `reactNotices` lists what one
step writes, and what a log at debug level says under each of its titles is read off
that list: the appends with their numbers, the first readiness, and each completion
that nobody waited for. -/
namespace SegmentPump

variable {σ τ : Type}

def entries (titles : List String) (log : List Notice) : List Notice :=
  log.filter fun n => n.shownAt .debug && titles.contains n.message

@[simp] theorem entriesNil (titles : List String) : entries titles [] = [] := rfl

@[simp] theorem entriesAppend (titles : List String) (log later : List Notice) :
    entries titles (log ++ later) = entries titles log ++ entries titles later :=
  List.filter_append ..

theorem entriesAlike (titles : List String) (message : String) {log : List Notice}
    (alike : ∀ n ∈ log, n.shownAt .debug = true ∧ n.message = message) :
    entries titles log = if message ∈ titles then log else [] := by
  split
  · rename_i listed
    refine List.filter_eq_self.mpr fun n member => ?_
    obtain ⟨shown, same⟩ := alike n member
    rw [shown, same, Bool.true_and]
    exact List.contains_iff_mem.mpr listed
  · rename_i unlisted
    refine List.filter_eq_nil_iff.mpr fun n member => ?_
    rw [(alike n member).2, Bool.and_eq_true, List.contains_iff_mem]
    exact fun both => unlisted both.2

theorem warningsAlike {warnings : List Notice} (warns : ∀ n ∈ warnings, n.warns = true) :
    ∀ n ∈ warnings, n.shownAt .debug = true ∧ n.message = "Segment queue is backing up" := by
  intro n member
  have warning := warns n member
  cases n with
  | backingUp => exact ⟨rfl, rfl⟩
  | _ => cases warning

namespace Pump

def greeting (p : Pump σ) (e : Event) : List Notice :=
  if e = .sinkReady then [if p.ready then .readinessRepeated else .sinkReady p.waiting.length]
  else []

theorem enterNotices (p : Pump σ) (e : Event) :
    ∃ warnings : List Notice, (∀ n ∈ warnings, n.warns = true) ∧
      (p.enter e).notices = warnings ++ p.greeting e := by
  cases e with
  | arrived segment =>
    refine ⟨(p.receive segment).notices, ?_, (List.append_nil _).symm⟩
    intro n member
    simp only [receive, List.mem_ite_nil_right, List.mem_singleton] at member
    rw [member.2]
    rfl
  | sinkReady =>
    refine ⟨[], List.forall_mem_nil _, ?_⟩
    have depth : p.backlog.size = p.waiting.length := Backlog.sizeToList _
    cases ready : p.ready <;> simp [enter, latch, greeting, ready, depth]
  | completed => exact ⟨[], List.forall_mem_nil _, rfl⟩

theorem concludeNotices (p : Pump σ) (segment : Segment) (rest : List Segment) (reply : Reply)
    (sink : σ) :
    ((p.handOver segment rest sink).conclude segment reply).notices =
      if reply = .accepted then
        [.appended (p.counters.segmentsAppended + 1) segment.size rest.length]
      else [] := by
  cases reply with
  | accepted =>
    simp only [conclude, fill, handOverDepth]
    rfl
  | refused refusal => rfl
  | crashed => rfl

variable [Sink σ]

theorem reactNotices {p : Pump (Observed σ)} (latched : p.Latched) (e : Event) :
    ∃ (warnings : List Notice) (more : List Segment), (∀ n ∈ warnings, n.warns = true) ∧
      more.length ≤ 1 ∧ (p.react e).pump.sink.appended = p.sink.appended ++ more ∧
      (p.react e).notices =
        .handling e.name p.slot p.backlog.size :: warnings ++ p.greeting e ++
          (if (p.react e).result = .error (.pump .unexpectedCompletion) then
            [.completionNeverIssued] else []) ++
          more.map fun segment =>
            .appended (p.counters.segmentsAppended + 1) segment.size
              (p.react e).pump.waiting.length := by
  obtain ⟨warnings, warns, entered⟩ := enterNotices p e
  have way := applied latched e
  have notices : (p.react e).notices =
      .handling e.name p.slot p.backlog.size :: (p.apply e).notices := rfl
  rw [reactPump, reactResult, notices]
  generalize p.apply e = s at way ⊢
  cases way with
  | unexpected event =>
    subst event
    exact ⟨[], [], nofun, Nat.zero_le 1, (List.append_nil _).symm, rfl⟩
  | held =>
    refine ⟨warnings, [], warns, Nat.zero_le 1, ?_, ?_⟩
    · rw [enterSink, List.append_nil]
    · simp [entered]
  | advanced _ _ advance =>
    cases advance with
    | rest =>
      refine ⟨warnings, [], warns, Nat.zero_le 1, ?_, ?_⟩
      · rw [Step.afterPump, Step.donePump, enterSink, List.append_nil]
      · simp [Step.after, Step.done, entered]
    | @offer segment rest reply sink head answer =>
      rw [enterSink] at answer
      have appended := Observed.appendedSnoc answer
      have written := concludeNotices (p.enter e).pump segment rest reply sink
      rw [show (p.enter e).pump.counters.segmentsAppended = p.counters.segmentsAppended by
        rw [enterCounters]] at written
      refine ⟨warnings, if reply = .accepted then [segment] else [], warns, ?_, ?_, ?_⟩
      · split <;> simp
      · rw [Step.afterPump, concludeSink, sinkHandOver, appended]
      · have expected : ((((p.enter e).pump.handOver segment rest sink).conclude segment
            reply).after (p.enter e).notices).result ≠ .error (.pump .unexpectedCompletion) := by
          cases reply <;> simp [conclude, fill, Step.fail]
        rw [if_neg expected, Step.afterPump, concludeWaiting, waitingHandOver]
        simp only [Step.after, written, entered]
        split <;> simp

omit [Sink σ] in
theorem greetingEntries (titles : List String) (p : Pump σ) (e : Event) :
    entries titles (p.greeting e) =
      if "Sink ready" ∈ titles ∧ e = .sinkReady ∧ p.ready = false then
        [.sinkReady p.waiting.length] else [] := by
  unfold greeting
  by_cases event : e = .sinkReady
  · cases ready : p.ready with
    | true => simp [event, entries, Notice.shownAt, Notice.level, Level.rank]
    | false =>
      rw [if_pos event, if_neg Bool.false_ne_true, entriesAlike titles "Sink ready"]
      · simp [event]
      · simp [Notice.shownAt, Notice.level, Level.rank, Notice.message]
  · simp [event]

theorem spuriousEntries (titles : List String) (result : Except Fault Unit) :
    entries titles (if result = .error (.pump .unexpectedCompletion) then
        [.completionNeverIssued] else []) =
      if "Sink completed an append that was never issued" ∈ titles ∧
          result = .error (.pump .unexpectedCompletion) then
        [.completionNeverIssued] else [] := by
  by_cases unexpected : result = .error (.pump .unexpectedCompletion)
  · rw [if_pos unexpected, entriesAlike titles "Sink completed an append that was never issued"]
    · simp [unexpected]
    · simp [Notice.shownAt, Notice.level, Level.rank, Notice.message]
  · simp [unexpected]

variable {p : Pump (Observed σ)}

theorem reactEntries (latched : p.Latched) (e : Event) {titles : List String}
    (other : "Segment queue is backing up" ∉ titles) :
    ∃ more : List Segment, more.length ≤ 1 ∧
      (p.react e).pump.sink.appended = p.sink.appended ++ more ∧
      entries titles (p.react e).notices =
        (if "Sink ready" ∈ titles ∧ e = .sinkReady ∧ p.ready = false then
          [.sinkReady p.waiting.length] else []) ++
        (if "Sink completed an append that was never issued" ∈ titles ∧
            (p.react e).result = .error (.pump .unexpectedCompletion) then
          [.completionNeverIssued] else []) ++
        if "Appended segment" ∈ titles then
          more.map fun segment =>
            .appended (p.counters.segmentsAppended + 1) segment.size
              (p.react e).pump.waiting.length
        else [] := by
  obtain ⟨warnings, more, warns, one, appended, notices⟩ := reactNotices latched e
  refine ⟨more, one, appended, ?_⟩
  have handling : entries titles [.handling e.name p.slot p.backlog.size] = [] := rfl
  have warned : entries titles warnings = [] := by
    rw [entriesAlike titles _ (warningsAlike warns), if_neg other]
  rw [notices, ← List.singleton_append, entriesAppend, entriesAppend, entriesAppend, entriesAppend,
    handling, warned, greetingEntries, spuriousEntries, List.nil_append, List.nil_append,
    entriesAlike titles "Appended segment"]
  simp [Notice.shownAt, Notice.level, Level.rank, Notice.message]

theorem appendsNoted (latched : p.Latched) (e : Event) :
    ∃ more : List Segment, more.length ≤ 1 ∧
      (p.react e).pump.sink.appended = p.sink.appended ++ more ∧
      entries ["Appended segment"] (p.react e).notices = more.map fun segment =>
        .appended (p.counters.segmentsAppended + 1) segment.size
          (p.react e).pump.waiting.length := by
  simpa using reactEntries latched e (show _ ∉ ["Appended segment"] by decide)

theorem readinessNoted (latched : p.Latched) (e : Event) :
    entries ["Sink ready"] (p.react e).notices =
      if e = .sinkReady ∧ p.ready = false then [.sinkReady p.waiting.length] else [] := by
  obtain ⟨_, _, _, noted⟩ := reactEntries latched e (show _ ∉ ["Sink ready"] by decide)
  simpa using noted

theorem spuriousNoted (latched : p.Latched) (e : Event) :
    entries ["Sink completed an append that was never issued"] (p.react e).notices =
      if (p.react e).result = .error (.pump .unexpectedCompletion) then [.completionNeverIssued]
      else [] := by
  obtain ⟨_, _, _, noted⟩ := reactEntries latched e
    (show _ ∉ ["Sink completed an append that was never issued"] by decide)
  simpa using noted

theorem logAppend (p : Pump σ) (events later : List Event) :
    p.log (events ++ later) = p.log events ++ (p.after events).log later := by
  induction events generalizing p with
  | nil => rfl
  | cons e rest ih => rw [List.cons_append, log, log, ih, List.append_assoc, afterCons]

theorem logOne (p : Pump σ) (e : Event) : p.log [e] = (p.react e).notices :=
  List.append_nil _

theorem spuriousLogged (latched : p.Latched) (events : List Event) :
    entries ["Sink completed an append that was never issued"] (p.log events) =
      List.replicate ((p.outcomes events).countP fun outcome =>
        outcome.2 = .error (.pump .unexpectedCompletion)) .completionNeverIssued := by
  induction events generalizing p with
  | nil => rfl
  | cons e rest ih =>
    rw [log, entriesAppend, ih (reactLatched latched e), spuriousNoted latched, outcomes,
      List.countP_cons]
    by_cases unexpected : (p.react e).result = .error (.pump .unexpectedCompletion)
    · simp [unexpected, List.replicate_succ]
    · simp [unexpected]

theorem readinessSilent (latched : p.Latched) {events : List Event}
    (known : .sinkReady ∈ events → p.ready = true) :
    entries ["Sink ready"] (p.log events) = [] := by
  induction events generalizing p with
  | nil => rfl
  | cons e rest ih =>
    have still : .sinkReady ∈ rest → (p.react e).pump.ready = true := by
      intro later
      rw [reactReady latched, known (List.mem_cons_of_mem e later), Bool.true_or]
    have said : ¬ (e = .sinkReady ∧ p.ready = false) := by
      rintro ⟨rfl, unset⟩
      rw [known List.mem_cons_self] at unset
      cases unset
    rw [log, entriesAppend, readinessNoted latched, if_neg said, ih (reactLatched latched e) still,
      List.nil_append]

theorem readinessLogged (start : σ) (warnDepth : Nat) {before : List Event}
    (first : .sinkReady ∉ before) (later : List Event) :
    entries ["Sink ready"] ((observed start warnDepth).log (before ++ .sinkReady :: later)) =
      [.sinkReady (arrivals before).length] := by
  have books := ledgerAfter start warnDepth before
  have unset := books.latch.trans (decide_eq_false first)
  have waiting := books.conserved
  rw [books.gated unset, List.nil_append] at waiting
  have ready : (((observed start warnDepth).after before).react .sinkReady).pump.ready = true := by
    rw [reactReady books.latched, decide_eq_true rfl, Bool.or_true]
  have latched : (observed start warnDepth).Latched := newLatched _ warnDepth
  rw [logAppend, log, entriesAppend, entriesAppend,
    readinessSilent latched fun sent => absurd sent first, readinessNoted books.latched,
    if_pos ⟨rfl, unset⟩, waiting, readinessSilent (reactLatched books.latched _) fun _ => ready]
  rfl

theorem appendsLogged (start : σ) (warnDepth : Nat) (events : List Event) :
    let begun := observed start warnDepth
    let noted := entries ["Appended segment"] (begun.log events)
    noted.length = (begun.after events).sink.appended.length ∧
      ∀ j segment, (begun.after events).sink.appended[j]? = some segment →
        ∃ before e later, events = before ++ e :: later ∧
          (begun.after before).sink.appended.length = j ∧
          (begun.after (before ++ [e])).sink.appended.length = j + 1 ∧
          noted[j]? = some (.appended (j + 1) segment.size
            (begun.after (before ++ [e])).stats.queueDepth) := by
  intro begun noted
  induction events using List.reverseRecOn with
  | nil => exact ⟨rfl, nofun⟩
  | append_singleton events e ih =>
    obtain ⟨length, told⟩ := ih
    have books : Ledger start (begun.after events) _ _ _ := ledgerAfter start warnDepth events
    obtain ⟨more, one, appended, written⟩ := appendsNoted books.latched e
    have whole : noted = entries ["Appended segment"] (begun.log events) ++ more.map fun segment =>
        .appended ((begun.after events).counters.segmentsAppended + 1) segment.size
          ((begun.after events).react e).pump.waiting.length := by
      rw [← written, ← entriesAppend, ← logOne, ← logAppend]
    have depth : (begun.after (events ++ [e])).stats.queueDepth =
        ((begun.after events).react e).pump.waiting.length := by
      rw [afterSnoc]
      exact Backlog.sizeToList _
    rw [afterSnoc, appended, whole]
    refine ⟨by simp [length], fun j segment found => ?_⟩
    rcases Nat.lt_or_ge j (begun.after events).sink.appended.length with early | late
    · rw [List.getElem?_append_left early] at found
      obtain ⟨before, d, later, rfl, count, next, entry⟩ := told j segment found
      refine ⟨before, d, later ++ [e], by simp, count, next, ?_⟩
      rw [List.getElem?_append_left (length ▸ early), entry]
    · -- The step made one append at the most, so that this is the one.
      rw [List.getElem?_append_right late] at found
      obtain ⟨inside, same⟩ := List.getElem?_eq_some_iff.mp found
      have last : j = (begun.after events).sink.appended.length := by omega
      have only : more.length = 1 := by omega
      refine ⟨events, e, [], rfl, last.symm, ?_, ?_⟩
      · rw [afterSnoc, appended, List.length_append, only, last]
      · rw [List.getElem?_append_right (length ▸ late), List.getElem?_map, length, found, depth,
          books.appended.1, last]
        rfl

theorem courseWithSink [Sink τ] {f : σ → τ}
    (same : ∀ sink segment,
      Sink.offer (f sink) segment = ((Sink.offer sink segment).1, f (Sink.offer sink segment).2))
    (p : Pump σ) (events : List Event) :
    (p.withSink f).log events = p.log events ∧ (p.withSink f).outcomes events = p.outcomes events := by
  induction events generalizing p with
  | nil => exact ⟨rfl, rfl⟩
  | cons e rest ih =>
    have step : (p.withSink f).react e = (p.react e).withSink f := by
      rw [react, applyWithSink same]
      rfl
    rw [log, outcomes, step]
    obtain ⟨log, outcomes⟩ := ih (p.react e).pump
    exact ⟨congrArg _ log, congrArg _ outcomes⟩

theorem courseUnobserved (sink : σ) (warnDepth : Nat) (events : List Event) :
    (new sink warnDepth).log events = (observed sink warnDepth).log events ∧
      (new sink warnDepth).outcomes events = (observed sink warnDepth).outcomes events :=
  courseWithSink (f := Observed.sink) (fun _ _ => rfl) (observed sink warnDepth) events

theorem statsUnobserved (sink : σ) (warnDepth : Nat) (events : List Event) :
    ((new sink warnDepth).after events).stats = ((observed sink warnDepth).after events).stats :=
  congrArg stats
    (afterWithSink (f := Observed.sink) (fun _ _ => rfl) (observed sink warnDepth) events)

end Pump
end SegmentPump
