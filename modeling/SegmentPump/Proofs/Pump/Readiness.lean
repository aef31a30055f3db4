import SegmentPump.Proofs.Pump.Intact
import SegmentPump.Proofs.Pump.Ledger

/-! Nothing waits in front of a sink that is ready and free, unless the sink has
just refused: whichever event is handled next without a failure picks the work up
again. As long as nothing was refused, readiness that is signalled again therefore
finds nothing to do, and such signals can be added to a course of events or taken
out of it without a trace. -/
namespace SegmentPump

variable {σ : Type}

def Observed.Unrefused (o : Observed σ) : Prop := ∀ offer ∈ o.offers.toList, offer.reply = .accepted

instance (o : Observed σ) : Decidable o.Unrefused :=
  inferInstanceAs (Decidable (∀ offer ∈ o.offers.toList, offer.reply = .accepted))

def apartFromReady (events : List Event) : List Event := events.filter (· ≠ .sinkReady)

@[simp] theorem apartReadyCons (rest : List Event) :
    apartFromReady (.sinkReady :: rest) = apartFromReady rest := by
  simp [apartFromReady]

theorem apartOtherCons {e : Event} (other : e ≠ .sinkReady) (rest : List Event) :
    apartFromReady (e :: rest) = e :: apartFromReady rest := by
  simp [apartFromReady, other]

theorem apartReplicate (count : Nat) : apartFromReady (List.replicate count .sinkReady) = [] := by
  simp [apartFromReady]

namespace Pump

variable [Sink σ]

def outcomes (p : Pump σ) : List Event → List (Event × Except Fault Unit)
  | [] => []
  | e :: rest => (e, (p.react e).result) :: (p.react e).pump.outcomes rest

theorem outcomeEvent {p : Pump σ} {events : List Event} {outcome : Event × Except Fault Unit}
    (member : outcome ∈ p.outcomes events) : outcome.1 ∈ events := by
  induction events generalizing p with
  | nil => cases member
  | cons e rest ih =>
    rcases List.mem_cons.mp member with rfl | later
    · exact List.mem_cons_self
    · exact List.mem_cons_of_mem _ (ih later)

variable {p : Pump (Observed σ)}

theorem unrefusedBefore (latched : p.Latched) {events : List Event}
    (unrefused : (p.after events).sink.Unrefused) : p.sink.Unrefused := by
  obtain ⟨more, record⟩ := afterOffers latched events
  intro offer member
  exact unrefused offer (record ▸ List.mem_append_left more member)

theorem reactUnrefused (latched : p.Latched) {e : Event}
    (unrefused : (p.react e).pump.sink.Unrefused) :
    (p.react e).result = .ok () ∨ (p.react e).pump = p := by
  have way := applied latched e
  rw [reactPump] at unrefused ⊢
  rw [reactResult]
  generalize p.apply e = s at way unrefused ⊢
  cases way with
  | unexpected => exact .inr rfl
  | held => exact .inl (enterResult p e)
  | advanced _ _ advance =>
    cases advance with
    | rest => exact .inl rfl
    | @offer segment _ reply _ _ answer =>
      have last : ⟨segment, reply⟩ ∈ ((p.enter e).pump.sink.offers.push ⟨segment, reply⟩).toList := by
        simp
      rw [Step.afterPump, concludeSink, sinkHandOver, Observed.Unrefused,
        (Observed.offerIff.mp answer).2] at unrefused
      cases unrefused _ last
      exact .inl rfl

theorem intactReactUnrefused (intact : p.Intact) {e : Event}
    (unrefused : (p.react e).pump.sink.Unrefused) : (p.react e).pump.Intact := by
  rcases reactUnrefused intact.latched unrefused with ok | same
  · exact intactReact intact ok
  · rw [same]
    exact intact

theorem intactUnrefused (intact : p.Intact) {events : List Event}
    (unrefused : (p.after events).sink.Unrefused) : (p.after events).Intact := by
  induction events generalizing p with
  | nil => exact intact
  | cons e rest ih =>
    have here := unrefusedBefore (reactLatched intact.latched e) unrefused
    exact ih (intactReactUnrefused intact here) unrefused

theorem readinessSpared (intact : p.Intact) (ready : p.ready = true) (events : List Event)
    (unrefused : (p.after events).sink.Unrefused ∨
      (p.after (apartFromReady events)).sink.Unrefused) :
    p.after events = p.after (apartFromReady events) ∧
      (p.outcomes events).filter (·.1 ≠ .sinkReady) = p.outcomes (apartFromReady events) ∧
      ∀ outcome ∈ p.outcomes events, outcome.1 = .sinkReady → outcome.2 = .ok () := by
  induction events generalizing p with
  | nil => exact ⟨rfl, rfl, nofun⟩
  | cons e rest ih =>
    by_cases again : e = .sinkReady
    · subst again
      obtain ⟨ok, same⟩ := reactReadyAgain intact ready
      rw [apartReadyCons, afterCons, same] at unrefused ⊢
      obtain ⟨state, others, readies⟩ := ih intact ready unrefused
      refine ⟨state, ?_, ?_⟩
      · simpa [outcomes, same] using others
      · simpa [outcomes, same, ok] using readies
    · rw [apartOtherCons again, afterCons, afterCons] at unrefused ⊢
      have latched := reactLatched intact.latched e
      have here : (p.react e).pump.sink.Unrefused :=
        unrefused.elim (unrefusedBefore latched) (unrefusedBefore latched)
      have still : (p.react e).pump.ready = true := by rw [reactReady intact.latched, ready]; rfl
      obtain ⟨state, others, readies⟩ := ih (intactReactUnrefused intact here) still unrefused
      refine ⟨state, ?_, ?_⟩
      · simpa [outcomes, again] using others
      · simpa [outcomes, again] using readies

theorem workConserved (sink : σ) (warnDepth : Nat) (events : List Event) :
    let p := (observed sink warnDepth).after events
    (∀ e, (p.react e).result = .ok () → (p.react e).pump.ready = true →
        (p.react e).pump.slot = .idle → (p.react e).pump.waiting = []) ∧
      (.sinkReady ∈ events → p.sink.Unrefused → ∀ count,
        p.after (List.replicate count .sinkReady) = p ∧
          ∀ outcome ∈ p.outcomes (List.replicate count .sinkReady), outcome.2 = .ok ()) ∧
      (.sinkReady ∈ events → ∀ course course', (p.after course).sink.Unrefused →
        apartFromReady course' = apartFromReady course →
        p.after course' = p.after course ∧
          (p.outcomes course').filter (·.1 ≠ .sinkReady) =
            (p.outcomes course).filter (·.1 ≠ .sinkReady) ∧
          ∀ later, (p.after course').outcomes later = (p.after course).outcomes later) := by
  intro p
  have books := ledgerAfter sink warnDepth events
  have ready (sent : .sinkReady ∈ events) : p.ready = true := books.latch.trans (decide_eq_true sent)
  have intact (unrefused : p.sink.Unrefused) : p.Intact :=
    intactUnrefused (intactNew _ warnDepth) unrefused
  refine ⟨fun e ok on idle => reactConserves books.latched ok ⟨on, idle⟩,
    fun sent unrefused count => ?_, fun sent course course' unrefused same => ?_⟩
  · have unparted := apartReplicate count
    obtain ⟨state, -, readies⟩ := readinessSpared (intact unrefused) (ready sent)
      (List.replicate count .sinkReady) (.inr (by rw [unparted]; exact unrefused))
    refine ⟨by rw [state, unparted, afterNil], fun outcome member => readies outcome member ?_⟩
    exact List.eq_of_mem_replicate (outcomeEvent member)
  · have fresh := intact (unrefusedBefore books.latched unrefused)
    obtain ⟨state, others, -⟩ := readinessSpared fresh (ready sent) course (.inl unrefused)
    rw [state, ← same] at unrefused
    obtain ⟨state', others', -⟩ := readinessSpared fresh (ready sent) course' (.inr unrefused)
    have whole : p.after course' = p.after course := by rw [state, state', same]
    exact ⟨whole, by rw [others, others', same], fun later => by rw [whole]⟩

theorem workConservedRepeated :
    let first : Segment := ⟨⟨#[1]⟩⟩
    let second : Segment := ⟨⟨#[2, 3]⟩⟩
    let p := (observed ({} : Script) 1).after [.arrived first, .sinkReady]
    let course : List Event := [.sinkReady, .arrived second, .completed, .completed, .completed]
    let course' : List Event :=
      [.arrived second, .sinkReady, .completed, .completed, .sinkReady, .sinkReady, .completed]
    .sinkReady ∈ [Event.arrived first, .sinkReady] ∧ (p.after course).sink.Unrefused ∧
      apartFromReady course' = apartFromReady course ∧ p.after course' = p.after course := by
  intro first second p course course'
  have sent : .sinkReady ∈ [Event.arrived first, .sinkReady] := by decide
  have unrefused : (p.after course).sink.Unrefused := by decide
  have same : apartFromReady course' = apartFromReady course := by decide
  obtain ⟨_, _, spared⟩ := workConserved ({} : Script) 1 [.arrived first, .sinkReady]
  exact ⟨sent, unrefused, same, (spared sent course course' unrefused same).1⟩

end Pump
end SegmentPump
