import SegmentPump.Sink

/-! Sinks as seen from outside. `offerAll` is what a sink makes of segments that
are offered to it in turn; the record that an observed sink keeps is exactly
that, so nothing said about the record depends on who keeps it. -/
namespace SegmentPump

variable {σ : Type} [Sink σ]

namespace Sink

def offerAll (sink : σ) : List Segment → List Offer × σ
  | [] => ([], sink)
  | segment :: rest =>
    let first := Sink.offer sink segment
    let later := offerAll first.2 rest
    (⟨segment, first.1⟩ :: later.1, later.2)

theorem offerAllSnoc (sink : σ) (segments : List Segment) (segment : Segment) :
    offerAll sink (segments ++ [segment]) =
      ((offerAll sink segments).1 ++
          [⟨segment, (Sink.offer (offerAll sink segments).2 segment).1⟩],
        (Sink.offer (offerAll sink segments).2 segment).2) := by
  induction segments generalizing sink with
  | nil => rfl
  | cons head rest ih => simp [offerAll, ih]

def Willing (sink : σ) : Prop :=
  ∀ segments, ∀ offer ∈ (offerAll sink segments).1, offer.reply = .accepted

def Steady (sink : σ) : Prop :=
  ∀ segments, ∀ offer ∈ (offerAll sink segments).1, offer.reply ≠ .crashed

end Sink

namespace Observed

def appended (o : Observed σ) : List Segment :=
  (o.offers.toList.filter fun offer => offer.reply = .accepted).map Offer.segment

def Faithful (start : σ) (o : Observed σ) : Prop :=
  Sink.offerAll start o.offered = (o.offers.toList, o.sink)

theorem offerIff {o after : Observed σ} {segment : Segment} {reply : Reply} :
    Sink.offer o segment = (reply, after) ↔
      Sink.offer o.sink segment = (reply, after.sink) ∧
        after.offers = o.offers.push ⟨segment, reply⟩ := by
  obtain ⟨sink, offers⟩ := after
  simp only [Sink.offer, Prod.mk.injEq, Observed.mk.injEq]
  constructor
  · rintro ⟨rfl, rfl, rfl⟩
    exact ⟨rfl, rfl⟩
  · rintro ⟨same, rfl⟩
    simp [same]

variable {o after : Observed σ} {segment : Segment} {reply : Reply}

theorem offeredSnoc (answer : Sink.offer o segment = (reply, after)) :
    after.offered = o.offered ++ [segment] := by
  simp [offered, (offerIff.mp answer).2]

theorem appendedSnoc (answer : Sink.offer o segment = (reply, after)) :
    after.appended = o.appended ++ if reply = .accepted then [segment] else [] := by
  rw [appended, (offerIff.mp answer).2, Line.toListPush, List.filter_append, List.map_append]
  by_cases accepted : reply = .accepted <;> simp [appended, accepted]

theorem faithfulSnoc {start : σ} (faithful : o.Faithful start)
    (answer : Sink.offer o segment = (reply, after)) : after.Faithful start := by
  obtain ⟨inner, record⟩ := offerIff.mp answer
  rw [Faithful] at *
  rw [offeredSnoc answer, Sink.offerAllSnoc, faithful, inner, record, Line.toListPush]

theorem answerListed {start : σ} (faithful : o.Faithful start)
    (answer : Sink.offer o segment = (reply, after)) :
    ⟨segment, reply⟩ ∈ (Sink.offerAll start after.offered).1 := by
  rw [faithfulSnoc faithful answer, (offerIff.mp answer).2]
  simp

theorem willingAccepts {start : σ} (willing : Sink.Willing start) (faithful : o.Faithful start)
    (answer : Sink.offer o segment = (reply, after)) : reply = .accepted :=
  willing _ _ (answerListed faithful answer)

theorem steadyAnswers {start : σ} (steady : Sink.Steady start) (faithful : o.Faithful start)
    (answer : Sink.offer o segment = (reply, after)) : reply ≠ .crashed :=
  steady _ _ (answerListed faithful answer)

omit [Sink σ] in
theorem appendedAccepted (accepted : ∀ offer ∈ o.offers.toList, offer.reply = .accepted) :
    o.appended = o.offered := by
  rw [appended, offered, List.filter_eq_self.mpr]
  simpa using accepted

theorem appendedAll {start : σ} (willing : Sink.Willing start) (faithful : o.Faithful start) :
    o.appended = o.offered := by
  have accepted := willing o.offered
  rw [faithful] at accepted
  exact appendedAccepted accepted

end Observed
end SegmentPump
