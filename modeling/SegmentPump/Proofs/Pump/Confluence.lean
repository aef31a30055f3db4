import SegmentPump.Proofs.Pump.Ledger

/-! A pump in front of a willing sink. How arrivals, completions and readiness
are merged makes no difference: what was appended and what waits can be written
down from the arrivals, the number of completions that were taken, and whether
the sink became ready. -/
namespace SegmentPump

theorem Slot.eqOfLoad {s t : Slot} (same : s.load = t.load) : s = t := by
  cases s <;> cases t <;> first | rfl | cases same

theorem Slot.loadIdle {s : Slot} : s.load = 0 ↔ s = .idle := by
  cases s <;> simp [load]

theorem Script.willing : Sink.Willing ({} : Script) := by
  intro segments
  induction segments with
  | nil => simp [Sink.offerAll]
  | cons segment rest ih => simpa [Sink.offerAll, Sink.offer] using ih

namespace Pump

variable {σ : Type} [Sink σ]

theorem reactWilling {start : σ} (willing : Sink.Willing start) {p : Pump (Observed σ)}
    (latched : p.Latched) (faithful : p.sink.Faithful start) (e : Event) :
    (p.react e).result = .ok () ∨ (p.react e).pump = p := by
  have way := applied latched e
  rw [reactPump, reactResult]
  generalize p.apply e = s at way ⊢
  cases way with
  | unexpected => exact .inr rfl
  | held => exact .inl (enterResult p e)
  | advanced expected clear advance =>
    cases advance with
    | rest => exact .inl rfl
    | offer head answer =>
      rw [enterSink] at answer
      cases Observed.willingAccepts willing faithful answer
      exact .inl rfl

theorem clearEmpty {sink : σ} (willing : Sink.Willing sink) (warnDepth : Nat)
    (events : List Event) (clear : ((observed sink warnDepth).after events).Clear) :
    ((observed sink warnDepth).after events).waiting = [] := by
  induction events using List.reverseRecOn with
  | nil => rfl
  | append_singleton events e ih =>
    have books := ledgerAfter sink warnDepth events
    rw [afterSnoc] at clear ⊢
    rcases reactWilling willing books.latched books.faithful e with ok | same
    · exact reactConserves books.latched ok clear
    · rw [same] at clear ⊢
      exact ih clear

theorem unexpectedIff {p : Pump σ} (latched : p.Latched) :
    (p.react .completed).result = .error (.pump .unexpectedCompletion) ↔ p.slot = .idle := by
  have way := applied latched .completed
  rw [reactResult]
  generalize p.apply .completed = s at way ⊢
  cases way with
  | unexpected event idle => simp [idle]
  | held expected blocked => exact absurd ⟨latched (expected rfl), rfl⟩ blocked
  | advanced expected clear advance =>
    have busy := expected rfl
    cases advance with
    | rest => simp [busy]
    | @offer _ _ reply _ head answer => cases reply <;> simp [busy, conclude, fill]

theorem ledgerDetermines {start : σ} {p q : Pump (Observed σ)} {arrived : List Segment}
    {ready : Bool} {done : Nat} (left : Ledger start p arrived ready done)
    (right : Ledger start q arrived ready done) (offered : q.sink.offered = p.sink.offered) :
    q.backlog = p.backlog ∧ q.slot = p.slot ∧ q.ready = p.ready ∧ q.sink = p.sink ∧
      { q.stats with peakQueueDepth := p.stats.peakQueueDepth } = p.stats := by
  have waiting : q.waiting = p.waiting := by
    have both := right.conserved.trans left.conserved.symm
    rw [offered] at both
    exact List.append_cancel_left both
  have backlog : q.backlog = p.backlog := by
    have bytes := right.exact.trans ((congrArg totalSize waiting).trans left.exact.symm)
    exact Backlog.ext waiting bytes
  have sink : q.sink = p.sink := by
    have record := right.faithful
    rw [Observed.Faithful, offered, left.faithful, Prod.mk.injEq] at record
    obtain ⟨offers, inner⟩ := record
    cases left : p.sink
    cases right : q.sink
    simp only [left, right] at offers inner
    rw [inner, Line.ext offers]
  have slot : q.slot = p.slot := by
    have one := left.balance
    have other := right.balance
    rw [sink] at other
    exact Slot.eqOfLoad (by omega)
  have latch : q.ready = p.ready := right.latch.trans left.latch.symm
  refine ⟨backlog, slot, latch, sink, ?_⟩
  simp [stats, backlog, slot, latch, left.received, right.received, left.appended, right.appended,
    sink, left.completions, right.completions]

/- Work conservation and the accounting of the slot together fix how many of the
arrivals have been begun. -/
theorem offeredLength {sink : σ} (willing : Sink.Willing sink) (warnDepth : Nat)
    (events : List Event) :
    ((observed sink warnDepth).after events).sink.offered.length =
      if .sinkReady ∈ events then
        min (arrivals events).length ((observed sink warnDepth).completed events + 1)
      else 0 := by
  have books := ledgerAfter sink warnDepth events
  have empty := clearEmpty willing warnDepth events
  generalize (observed sink warnDepth).after events = p at *
  have balance := books.balance
  rw [Observed.appendedAll willing books.faithful] at balance
  have total := congrArg List.length books.conserved
  rw [List.length_append] at total
  by_cases ready : .sinkReady ∈ events
  · rw [if_pos ready]
    cases slot : p.slot with
    | idle =>
      have nothing := empty ⟨by simpa [ready] using books.latch, slot⟩
      rw [nothing, List.length_nil] at total
      rw [slot, Slot.load] at balance
      omega
    | inFlight =>
      rw [slot, Slot.load] at balance
      omega
  · rw [if_neg ready, books.gated (by simpa [ready] using books.latch), List.length_nil]

theorem interleavingsAgree {sink : σ} (willing : Sink.Willing sink) (warnDepth : Nat)
    (events : List Event) :
    let p := (observed sink warnDepth).after events
    let done := (observed sink warnDepth).completed events
    let count := if .sinkReady ∈ events then min (arrivals events).length (done + 1) else 0
    p.sink.appended = (arrivals events).take count ∧
      p.waiting = (arrivals events).drop count ∧
      (p.slot = .inFlight ↔ count = done + 1) ∧
      ((p.react .completed).result = .error (.pump .unexpectedCompletion) ↔
        .sinkReady ∉ events ∨ done = (arrivals events).length) ∧
      ∀ (warnDepth' : Nat) (events' : List Event),
        arrivals events' = arrivals events →
        (observed sink warnDepth').completed events' = done →
        (.sinkReady ∈ events' ↔ .sinkReady ∈ events) →
        let q := (observed sink warnDepth').after events'
        q.backlog = p.backlog ∧ q.slot = p.slot ∧ q.ready = p.ready ∧ q.sink = p.sink ∧
          { q.stats with peakQueueDepth := p.stats.peakQueueDepth } = p.stats := by
  intro p done count
  have books : Ledger sink p _ _ done := ledgerAfter sink warnDepth events
  have length : p.sink.offered.length = count := offeredLength willing warnDepth events
  have appended : p.sink.appended = p.sink.offered := Observed.appendedAll willing books.faithful
  have balance := books.balance
  rw [appended, length] at balance
  have total := congrArg List.length books.conserved
  rw [List.length_append, length] at total
  refine ⟨?_, ?_, ?_, ?_, ?_⟩
  · rw [appended, ← books.conserved, List.take_left' length]
  · rw [← books.conserved, List.drop_left' length]
  · cases slot : p.slot with
    | idle =>
      rw [slot, Slot.load] at balance
      exact ⟨fun busy => absurd busy (by decide), fun full => by omega⟩
    | inFlight =>
      rw [slot, Slot.load] at balance
      exact ⟨fun _ => balance, fun _ => rfl⟩
  · rw [unexpectedIff books.latched, ← Slot.loadIdle]
    by_cases ready : .sinkReady ∈ events
    · have counted : count = min (arrivals events).length (done + 1) := if_pos ready
      simp only [ready, not_true_eq_false, false_or]
      omega
    · have nothing : count = 0 := if_neg ready
      simp only [ready, not_false_eq_true, true_or, iff_true]
      omega
  · intro warnDepth' events' arrived taken latch q
    have others := ledgerAfter sink warnDepth' events'
    have lengths := offeredLength willing warnDepth' events'
    simp only [arrived, taken, latch] at others lengths
    have offered : q.sink.offered = p.sink.offered := by
      have both := others.conserved.trans books.conserved.symm
      exact (List.append_inj both (lengths.trans length.symm)).1
    exact ledgerDetermines books others offered

/- The first completion comes too early. The second one ends the append that
readiness made possible, and begins another. -/
theorem interleavingsAgreeEarly :
    Sink.Willing ({} : Script) ∧
      ((observed ({} : Script) 4).after
        [.arrived ⟨⟨#[1]⟩⟩, .completed, .sinkReady, .arrived ⟨⟨#[2, 3]⟩⟩, .completed]).sink.appended =
          [⟨⟨#[1]⟩⟩, ⟨⟨#[2, 3]⟩⟩] :=
  ⟨Script.willing, (interleavingsAgree Script.willing 4 _).1.trans (by decide)⟩

end Pump
end SegmentPump
