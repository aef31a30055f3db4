import SegmentPump.Proofs.Rehearsal.Payloads
import SegmentPump.Proofs.Session.History
import SegmentPump.Proofs.Simulation.Numbering

/-! The sizes of what a source sends, whether it fills a feed or talks to a session,
and with them the sizes of all payloads. -/
namespace SegmentPump

def Use.emission (interval : Nat) (segment : Segment) : List Use :=
  (if interval = 0 then [] else [.settle]) ++ [.deliver segment]

namespace Source

variable {s after : Source} {segment : Segment}

theorem emittedAdmitted (emits : s.emit = .ok (segment, after)) :
    s.sizes.Admits segment.size ∧ after.sizes = s.sizes := by
  rw [emit] at emits
  split at emits
  · cases emits
  · rename_i made
    cases emits
    exact ⟨SizeRange.segmentAdmitted made, rfl⟩

theorem emittedOntoAdmitted (count : Nat) {s : Source} {sent all : Line Segment}
    (emits : emitOnto sent count s = .ok all) :
    ∃ more, all.toList = sent.toList ++ more ∧ more.length = count ∧
      ∀ segment ∈ more, s.sizes.Admits segment.size := by
  induction count generalizing s sent with
  | zero =>
    cases emits
    exact ⟨[], (List.append_nil _).symm, rfl, nofun⟩
  | succ count ih =>
    rw [emitOnto] at emits
    split at emits
    · cases emits
    · rename_i segment behind first
      obtain ⟨admitted, sizes⟩ := emittedAdmitted first
      obtain ⟨more, whole, length, later⟩ := ih emits
      refine ⟨segment :: more, ?_, congrArg (· + 1) length, ?_⟩
      · rw [whole, Line.toListPush, List.append_assoc, List.singleton_append]
      · rw [List.forall_mem_cons, ← sizes]
        exact ⟨sizes ▸ admitted, later⟩

theorem segmentsAdmitted (bounded : s.sizes.largest ≠ 18446744073709551615) (count : Nat) :
    ∃ feed, s.segments count = .ok feed ∧ feed.length = count ∧
      ∀ segment ∈ feed, s.sizes.Admits segment.size := by
  obtain ⟨all, emits, _⟩ := emittedOnto count bounded .empty
  obtain ⟨more, whole, length, admitted⟩ := emittedOntoAdmitted count emits
  have whole : all.toList = more := whole.trans (List.nil_append more)
  exact ⟨all.toList, by rw [segments, emits]; rfl, whole ▸ length, whole ▸ admitted⟩

theorem waited (interval : Nat) (session : Session Channel) (segment : Segment) :
    session.useAll (Use.emission interval segment) =
      (if interval = 0 then session else session.settle).tell (.arrived segment) := by
  rw [Use.emission]
  split <;> rfl

/- What a session made of the payloads that were sent to it: it took all that there
were to be, or it had ended by the time of the last one, which it refused. -/
inductive Took (interval count : Nat) (d done : Delivery) : List Segment → Prop where
  | all {payloads : List Segment} (length : payloads.length = count)
      (sent : done.sent = d.sent.map (· + totalSize payloads))
      (goes : payloads ≠ [] → done.session.ending = none) : Took interval count d done payloads
  | refused {passed : List Segment} {last : Segment} (length : passed.length < count)
      (sent : done.sent = .error (.session .closed)) (ended : done.session.ending ≠ none)
      (went : passed ≠ [] →
        (d.session.useAll (passed.flatMap (Use.emission interval))).ending = none) :
      Took interval count d done (passed ++ [last])

theorem sentMore (sent : Except SimulationError Nat) (segment : Segment) (rest : List Segment) :
    (sent.map (· + segment.size)).map (· + totalSize rest) =
      sent.map (· + totalSize (segment :: rest)) := by
  cases sent with
  | error _ => rfl
  | ok total => simp [Except.map, Nat.add_assoc]

theorem tookMore {interval count : Nat} {d next done : Delivery} {payloads : List Segment}
    {segment : Segment} (goes : next.session.ending = none)
    (used : next.session = d.session.useAll (Use.emission interval segment))
    (sent : next.sent = d.sent.map (· + segment.size))
    (after : done.session = next.session.useAll (payloads.flatMap (Use.emission interval)))
    (took : Took interval count next done payloads) :
    Took interval (count + 1) d done (segment :: payloads) := by
  cases took with
  | all length whole on =>
    refine .all (congrArg (· + 1) length) (by rw [whole, sent, sentMore]) fun _ => ?_
    rcases eq_or_ne payloads [] with rfl | more
    · rw [after]
      exact goes
    · exact on more
  | @refused passed last length closed ended went =>
    rw [← List.cons_append]
    refine .refused (Nat.succ_lt_succ length) closed ended fun _ => ?_
    rw [List.flatMap_cons, Session.useAllAppend, ← used]
    rcases eq_or_ne passed [] with rfl | more
    · exact goes
    · exact went more

theorem delivers (interval count : Nat) {s : Source}
    (bounded : s.sizes.largest ≠ 18446744073709551615) (d : Delivery) :
    ∃ (payloads : List Segment) (done : Delivery), s.deliver interval count d = .ok done ∧
      Took interval count d done payloads ∧
      done.session = d.session.useAll (payloads.flatMap (Use.emission interval)) ∧
      ∀ segment ∈ payloads, s.sizes.Admits segment.size := by
  induction count generalizing s d with
  | zero =>
    have nothing : d.sent = d.sent.map (· + totalSize []) := by cases d.sent <;> rfl
    exact ⟨[], d, rfl, .all rfl nothing (absurd rfl), rfl, nofun⟩
  | succ count ih =>
    obtain ⟨segment, generator, emits, _⟩ := emitted bounded
    obtain ⟨admitted, -⟩ := emittedAdmitted emits
    have used := waited interval d.session segment
    simp only [deliver, emits]
    generalize (if interval = 0 then d.session else d.session.settle) = session at used ⊢
    cases ending : session.ending with
    | none =>
      rw [Session.tellRunning ending] at used
      simp only [Session.sendRunning ending]
      obtain ⟨payloads, done, delivered, took, after, later⟩ :=
        ih (s := { s with next := s.next + 1, generator }) bounded _
      refine ⟨segment :: payloads, done, delivered, ?_, ?_, ?_⟩
      · exact tookMore ending used.symm rfl after took
      · rw [after, List.flatMap_cons, Session.useAllAppend, used]
      · exact List.forall_mem_cons.mpr ⟨admitted, later⟩
    | some fate =>
      rw [Session.tellClosed ending] at used
      simp only [Session.sendClosed ending]
      refine ⟨[segment], _, rfl, ?_, ?_, ?_⟩
      · exact @Took.refused interval (count + 1) d _ [] segment (Nat.succ_pos count) rfl
          (by simp [ending]) (absurd rfl)
      · rw [List.flatMap_cons, List.flatMap_nil, List.append_nil, used]
      · simpa using admitted

end Source

namespace SizeRange

theorem emitsWithinBounds :
    (∀ (g : Generator) (low high : UInt64),
      (low < high →
        (high - low).toNat = high.toNat - low.toNat ∧
        (g.range low high).1.toNat = low.toNat + g.longWord.1.toNat % (high.toNat - low.toNat) ∧
        low ≤ (g.range low high).1 ∧ (g.range low high).1 < high) ∧
      (high ≤ low → g.range low high = (low, g))) ∧
    (∀ r : SizeRange, r.largest < 18446744073709551615 → ∀ sequence g, ∃ segment after,
      r.segment sequence g = .ok (segment, after) ∧ r.Admits segment.size) ∧
    (∀ i : Interleaving, i.sizes.largest < 18446744073709551615 → i.segmentCount ≤ UInt64.size →
      ∀ generator warnDepth, ∃ last report,
        i.turns i.longest { rehearsal := .new generator warnDepth } = .ok last ∧
        i.runFrom generator warnDepth = .ok report ∧ report.trace = last.rehearsal.trace ∧
        last.rehearsal.pump.sink.payloads.toList.length = i.segmentCount ∧
        ∀ segment ∈ last.rehearsal.pump.sink.payloads.toList, i.sizes.Admits segment.size) ∧
    ∀ s : Source, s.sizes.largest < 18446744073709551615 → ∀ count,
      (∃ feed, s.segments count = .ok feed ∧ feed.length = count ∧
        ∀ segment ∈ feed, s.sizes.Admits segment.size) ∧
      ∀ interval d, ∃ (payloads : List Segment) (done : Source.Delivery),
        s.deliver interval count d = .ok done ∧ Source.Took interval count d done payloads ∧
        done.session = d.session.useAll (payloads.flatMap (Use.emission interval)) ∧
        ∀ segment ∈ payloads, s.sizes.Admits segment.size := by
  refine ⟨fun g low high => ⟨fun room => ?_, g.rangeEmpty⟩, fun r bounded sequence g => ?_,
    fun i bounded fits generator warnDepth => ?_, fun s bounded count => ⟨?_, fun interval d => ?_⟩⟩
  · exact ⟨UInt64.toNat_sub_of_le _ _ (UInt64.le_of_lt room), g.rangeExact room,
      g.rangeBetween room⟩
  · obtain ⟨segment, after, made, _⟩ := numbered (UInt64.ne_of_lt bounded) sequence g
    exact ⟨segment, after, made, segmentAdmitted made⟩
  · exact i.runsSupplied generator warnDepth fits (.inr (UInt64.ne_of_lt bounded))
  · exact Source.segmentsAdmitted (UInt64.ne_of_lt bounded) count
  · exact Source.delivers interval count (UInt64.ne_of_lt bounded) d

theorem emitsWithinBoundsInverted :
    let g : Generator := .ofSeed 3
    let i : Interleaving :=
      { seed := 3, segmentCount := 2, sizes := { smallest := 300, largest := 20 } }
    let s : Source := { sizes := { smallest := 2, largest := 12 }, generator := g }
    (5 ≤ (g.range 5 9).1 ∧ (g.range 5 9).1 < 9) ∧ g.range 9 5 = (9, g) ∧
      (∃ last, i.turns i.longest { rehearsal := .new g 1 } = .ok last ∧
        last.rehearsal.pump.sink.payloads.toList.map Segment.size = [300, 300]) ∧
      ∃ feed, s.segments 3 = .ok feed ∧ feed.length = 3 ∧
        ∀ segment ∈ feed, 8 ≤ segment.size ∧ segment.size ≤ 12 := by
  intro g i s
  obtain ⟨drawn, _, runs, sends⟩ := emitsWithinBounds
  have room : (5 : UInt64) < 9 := by decide
  have bounded : i.sizes.largest < 18446744073709551615 := by decide
  have small : s.sizes.largest < 18446744073709551615 := by decide
  obtain ⟨last, _, turns, _, _, length, inverted⟩ := runs i bounded (by decide) g 1
  obtain ⟨feed, sent, count, ordered⟩ := (sends s small 3).1
  refine ⟨((drawn g 5 9).1 room).2.2, (drawn g 9 5).2 (by decide), ⟨last, turns, ?_⟩,
    feed, sent, count, fun segment member => (ordered segment member).ordered (by decide)⟩
  have same : ∀ segment ∈ last.rehearsal.pump.sink.payloads.toList, segment.size = 300 :=
    fun segment member => (inverted segment member).inverted (by decide)
  rw [List.map_congr_left same, List.map_const', length]
  rfl

end SizeRange
end SegmentPump
